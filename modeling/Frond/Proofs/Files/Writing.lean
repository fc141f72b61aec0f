import Frond.Proofs.Files.Paths
import Frond.Proofs.Session.Coherence

/-!
What writing a file does to a tree. A path leads to one place, and the text goes there and nowhere
else. No directory comes or goes with it, so that every path leads where it did before.
-/

namespace Frond

namespace FileTree

theorem run_read (tree : FileTree) (path : String) :
    (Files.read path : StateM FileTree _).run tree = (tree.read path, tree) := rfl

theorem run_write (tree : FileTree) (path text : String) :
    (Files.write path text : StateM FileTree _).run tree = tree.commit (tree.write path text) := rfl

theorem run_makeDirectory (tree : FileTree) (path : String) :
    (Files.makeDirectory path : StateM FileTree _).run tree =
      tree.commit (tree.makeDirectory path) := rfl

theorem run_bind_eq {α β : Type} {program : StateM FileTree α} {value : α} {tree next : FileTree}
    (ran : program.run tree = (value, next)) (rest : α → StateM FileTree β) :
    (program >>= rest).run tree = (rest value).run next := by
  rw [StateT.run_bind, ran]
  rfl

theorem fromUTF8?_eq_some_iff {content : ByteArray} {text : String} :
    String.fromUTF8? content = some text ↔ content = text.toUTF8 := by
  rw [String.fromUTF8?]
  split
  case isTrue valid =>
    rw [Option.some.injEq]
    constructor
    · rintro rfl
      rfl
    · intro same
      exact String.toByteArray_inj.mp same
  case isFalse invalid =>
    refine ⟨nofun, ?_⟩
    rintro rfl
    exact absurd text.isValidUTF8 invalid

theorem run_readText (tree : FileTree) (path : String) :
    ∃ result, (Files.readText (m := StateM FileTree) path).run tree = (result, tree) ∧
      ∀ text, result = .ok text ↔ tree.read path = .ok text.toUTF8 := by
  rw [Files.readText, run_bind_eq (run_read tree path)]
  cases tree.read path with
  | error e =>
      refine ⟨_, rfl, fun text => ⟨?_, ?_⟩⟩ <;>
        · intro same
          cases same
  | ok content =>
      simp only [Except.ok.injEq, ← fromUTF8?_eq_some_iff]
      cases String.fromUTF8? content with
      | none =>
          refine ⟨_, rfl, fun text => ⟨?_, ?_⟩⟩ <;>
            · intro same
              cases same
      | some text => exact ⟨_, rfl, fun other => by rw [Except.ok.injEq, Option.some.injEq]⟩

variable {tree next : FileTree} {path text : String} {place : Place}

/-- The place that a path leads to, for a text to be written there. -/
def place? (tree : FileTree) (path : String) : Except FileError Place := do
  let (start, names) ← tree.names path
  match ← tree.approach start (withoutSlashes names) with
  | (_, none) => throw .isDirectory
  | (directory, some name) =>
    if names.getLast? = some "" then throw .isDirectory else named directory name

/-- What a place holds after a text was written there. -/
def overwritten? (held : Option FileNode) (text : String) : Except FileError FileNode :=
  match held with
  | some .directory => .error .isDirectory
  | some .full => .error .noSpace
  | some (.stream written) => .ok (.stream (written ++ text))
  | some (.file _) | none => .ok (.file text.toUTF8)

theorem write_eq (tree : FileTree) (path text : String) :
    tree.write path text = (do
      let place ← tree.place? path
      let node ← overwritten? (tree.find? place) text
      return tree.put place node) := by
  rw [write, place?]
  cases tree.names path with
  | error e => rfl
  | ok named =>
      obtain ⟨start, names⟩ := named
      simp only [bind, Except.bind]
      cases tree.approach start (withoutSlashes names) with
      | error e => rfl
      | ok approached =>
          obtain ⟨directory, _ | name⟩ := approached
          · rfl
          dsimp only
          split
          case h_1 impossible => cases impossible
          case h_2 slash _ =>
            rw [if_pos slash]
            rfl
          case h_3 same slash =>
            cases same
            rw [if_neg slash]
            cases FileTree.named directory name with
            | error e => rfl
            | ok place =>
                dsimp only
                cases tree.find? place with
                | none => rfl
                | some node => cases node <;> rfl

/-- A text that was written went to the place that its path leads to. -/
theorem write_eq_ok_iff :
    tree.write path text = .ok next ↔
      ∃ place node, tree.place? path = .ok place ∧
        overwritten? (tree.find? place) text = .ok node ∧ next = tree.put place node := by
  rw [write_eq, bind_eq_ok_iff]
  constructor
  · rintro ⟨place, leads, written⟩
    obtain ⟨node, held, put⟩ := bind_eq_ok_iff.mp written
    exact ⟨place, node, leads, held, (Except.ok.inj put).symm⟩
  · rintro ⟨place, node, leads, held, rfl⟩
    exact ⟨place, leads, bind_eq_ok_iff.mpr ⟨node, held, rfl⟩⟩

theorem named_eq_ok_iff {directory : Place} {name : String} :
    named directory name = .ok place ↔
      name.utf8ByteSize ≤ maxNameSize ∧ place = directory ++ [name] := by
  rw [named]
  by_cases long : maxNameSize < name.utf8ByteSize
  · rw [if_pos long]
    exact ⟨nofun, fun found => absurd found.1 (Nat.not_le.mpr long)⟩
  · rw [if_neg long, Except.ok.injEq, eq_comm]
    exact (and_iff_right (Nat.not_lt.mp long)).symm

theorem ne_nil_of_place? (leads : tree.place? path = .ok place) : place ≠ [] := by
  obtain ⟨⟨start, names⟩, _, leads⟩ := bind_eq_ok_iff.mp leads
  obtain ⟨⟨directory, _ | name⟩, _, leads⟩ := bind_eq_ok_iff.mp leads
  · cases leads
  · dsimp only at leads
    split at leads
    · cases leads
    · rw [(named_eq_ok_iff.mp leads).2]
      simp

/-- Where a name leads, whatever lies there. -/
def leadsTo (place : Place) (name : String) : Place :=
  if Files.isStill name then place else if name == ".." then place.dropLast else place ++ [name]

theorem leadsTo_of_leadsOn (place : Place) {name : String} (leads : Files.LeadsOn name) :
    leadsTo place name = place ++ [name] := by
  simp [leadsTo, leads.1, leads.2]

/-- Only a directory is entered, and a name that leads on is not too long. -/
theorem enter_eq_ok_iff {name : String} {reached : Place} :
    tree.enter place name = .ok reached ↔
      reached = leadsTo place name ∧ (Files.LeadsOn name →
        name.utf8ByteSize ≤ maxNameSize ∧ tree.find? (place ++ [name]) = some .directory) := by
  by_cases leads : Files.LeadsOn name
  · have further : ¬(name == "..") = true := fun above => leads.2 (beq_iff_eq.mp above)
    rw [enter, if_neg (Bool.eq_false_iff.mp leads.1), if_neg further,
      leadsTo_of_leadsOn place leads]
    by_cases long : maxNameSize < name.utf8ByteSize
    · rw [if_pos long]
      exact ⟨nofun, fun there => absurd (there.2 leads).1 (Nat.not_le.mpr long)⟩
    · rw [if_neg long]
      have short := Nat.not_lt.mp long
      cases tree.find? (place ++ [name]) with
      | none => simp [leads]
      | some node => cases node <;> simp [leads, short, eq_comm]
  · have entered : tree.enter place name = .ok (leadsTo place name) := by
      rw [enter, leadsTo]
      by_cases still : Files.isStill name = true
      · rw [if_pos still, if_pos still]
      · have above : ¬name ≠ ".." := fun other => leads ⟨Bool.eq_false_iff.mpr still, other⟩
        have upwards : (name == "..") = true := beq_iff_eq.mpr (Decidable.not_not.mp above)
        rw [if_neg still, if_neg still, if_pos upwards, if_pos upwards]
    rw [entered, Except.ok.injEq, eq_comm]
    exact (and_iff_left fun found => absurd found leads).symm

theorem foldlM_enter_of_directories
    (kept : ∀ place, tree.find? place = some .directory → next.find? place = some .directory)
    {names : List String} {start reached : Place}
    (walked : names.foldlM tree.enter start = .ok reached) :
    names.foldlM next.enter start = .ok reached := by
  induction names generalizing start with
  | nil => exact walked
  | cons name rest ih =>
      rw [List.foldlM_cons] at walked ⊢
      obtain ⟨first, entered, walked⟩ := bind_eq_ok_iff.mp walked
      obtain ⟨reached, there⟩ := enter_eq_ok_iff.mp entered
      have again : next.enter start name = .ok first :=
        enter_eq_ok_iff.mpr ⟨reached, fun leads => (there leads).imp_right (kept _)⟩
      exact bind_eq_ok_iff.mpr ⟨first, again, ih walked⟩

/-- The same directories lie in two trees, and paths start at the same places. -/
structure Alike (tree next : FileTree) : Prop where
  home : next.home = tree.home
  directories : ∀ place, next.find? place = some .directory ↔ tree.find? place = some .directory

theorem alike_write (written : tree.write path text = .ok next) : Alike tree next := by
  obtain ⟨place, node, leads, held, rfl⟩ := write_eq_ok_iff.mp written
  have below := ne_nil_of_place? leads
  have apart : node ≠ .directory ∧ tree.find? place ≠ some .directory := by
    generalize tree.find? place = before at held ⊢
    unfold overwritten? at held
    split at held <;> cases held <;> simp
  refine ⟨rfl, ?_⟩
  intro other
  by_cases same : other = place
  · subst same
    rw [find?_put_self tree node below]
    simp [apart.1, apart.2]
  · rw [find?_put_of_ne tree node same]

theorem withoutSlashes_concat (names : List String) {name : String} (spelt : name ≠ "") :
    withoutSlashes (names ++ [name]) = names ++ [name] := by
  simp [withoutSlashes, spelt]

/-- The last name of a path is not entered; it says what can be made. -/
theorem approach_concat (tree : FileTree) (start : Place) (front : List String) (name : String) :
    tree.approach start (front ++ [name]) =
      (front.foldlM tree.enter start).map fun directory =>
        (directory, if Files.isStill name || name == ".." then none else some name) := by
  rw [approach, List.dropLast_concat, List.getLast?_concat]
  cases front.foldlM tree.enter start <;> rfl

theorem place?_concat {front : List String} {name : String} {start : Place}
    (spelt : tree.names path = .ok (start, front ++ [name])) (leads : Files.LeadsOn name) :
    tree.place? path = front.foldlM tree.enter start >>= (named · name) := by
  have nonempty : name ≠ "" := by
    rintro rfl
    cases leads.1
  rw [place?, spelt]
  dsimp only [bind, Except.bind]
  rw [withoutSlashes_concat front nonempty, approach_concat]
  cases front.foldlM tree.enter start with
  | error e => rfl
  | ok inner => simp [Except.map, Files.leadsOn_iff.mp leads, nonempty]

theorem names_unique {start start' : Place} {names names' : List String}
    (spelt : tree.names path = .ok (start, names))
    (spelt' : tree.names path = .ok (start', names')) : start = start' ∧ names = names' :=
  Prod.mk.inj (Except.ok.inj (spelt.symm.trans spelt'))

/-- A path leads to a directory. -/
def Stands (tree : FileTree) (path : String) (inner : Place) : Prop :=
  ∃ start names, tree.names path = .ok (start, names) ∧ names.foldlM tree.enter start = .ok inner

theorem Stands.walk {start inner : Place} {names : List String} (stands : Stands tree path inner)
    (spelt : tree.names path = .ok (start, names)) : names.foldlM tree.enter start = .ok inner := by
  obtain ⟨_, _, spelt', walked⟩ := stands
  obtain ⟨rfl, rfl⟩ := names_unique spelt spelt'
  exact walked

theorem Alike.stands {inner : Place} (alike : Alike tree next) (stands : Stands tree path inner) :
    Stands next path inner := by
  obtain ⟨start, names, spelt, walked⟩ := stands
  refine ⟨start, names, ?_,
    foldlM_enter_of_directories (fun place => (alike.directories place).mpr) walked⟩
  rw [← spelt, FileTree.names, FileTree.names, alike.home]

/-- A file in a directory lies below the place where the directory stands. -/
theorem place?_join_iff {directory name : String} {inner : Place} (file : Files.IsFileName name)
    (stands : Stands tree directory inner) :
    tree.place? (Files.join directory name) = .ok place ↔
      (Files.join directory name).utf8ByteSize ≤ maxPathSize ∧
        name.utf8ByteSize ≤ maxNameSize ∧ place = inner ++ [name] := by
  obtain ⟨start, names, spelt, walked⟩ := stands
  have lies (short : (Files.join directory name).utf8ByteSize ≤ maxPathSize) :
      tree.place? (Files.join directory name) = named inner name := by
    obtain ⟨front, joined, same⟩ := names_join spelt file.1 short
    have before : front.foldlM tree.enter start = .ok inner := by
      rcases same with rfl | rfl
      · exact walked
      · rw [List.foldlM_append] at walked
        obtain ⟨_, before, slash⟩ := bind_eq_ok_iff.mp walked
        cases slash
        exact before
    rw [place?_concat joined file.2, before]
    rfl
  constructor
  · intro found
    obtain ⟨_, read, _⟩ := bind_eq_ok_iff.mp found
    have short := (names_eq_ok_iff.mp read).1
    rw [lies short] at found
    exact ⟨short, named_eq_ok_iff.mp found⟩
  · rintro ⟨short, below⟩
    rw [lies short]
    exact named_eq_ok_iff.mpr below

end FileTree

end Frond
