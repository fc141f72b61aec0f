import Frond.Proofs.Files.Writing
import Frond.Proofs.Text.Cutting

/-!
What making directories does to a tree. Directories come up on the way of a path, where nothing
lay, and all else is left alone, also where one of them cannot be made. If all can be, the path
leads to a directory in the end.
-/

namespace Frond.FileTree

variable {tree made next last : FileTree} {path : String} {start reached place : Place}
  {names front rest : List String} {name : String} {new : Place → Prop}

/-- A place that names lead to on their way, below the one where they were before. -/
inductive Through : Place → List String → Place → Prop
  | here {start : Place} {name : String} {rest : List String} (leads : Files.LeadsOn name) :
      Through start (name :: rest) (start ++ [name])
  | later {start place : Place} {name : String} {rest : List String}
      (further : Through (leadsTo start name) rest place) : Through start (name :: rest) place

theorem Through.append (through : Through start front place) (rest : List String) :
    Through start (front ++ rest) place := by
  induction through with
  | here leads => exact .here leads
  | later _ ih => exact .later ih

theorem through_last (start : Place) (front : List String) (leads : Files.LeadsOn name) :
    Through start (front ++ name :: rest) (front.foldl leadsTo start ++ [name]) := by
  induction front generalizing start with
  | nil => exact .here leads
  | cons first front ih => exact .later (ih _)

theorem eq_of_walk (walked : names.foldlM tree.enter start = .ok reached) :
    reached = names.foldl leadsTo start := by
  induction names generalizing start with
  | nil =>
      cases walked
      rfl
  | cons name rest ih =>
      rw [List.foldlM_cons] at walked
      obtain ⟨first, entered, walked⟩ := bind_eq_ok_iff.mp walked
      rw [List.foldl_cons, ← (enter_eq_ok_iff.mp entered).1]
      exact ih walked

theorem directory_of_through (walked : names.foldlM tree.enter start = .ok reached)
    (through : Through start names place) : tree.find? place = some .directory := by
  induction through with
  | here leads =>
      rw [List.foldlM_cons] at walked
      obtain ⟨first, entered, _⟩ := bind_eq_ok_iff.mp walked
      exact ((enter_eq_ok_iff.mp entered).2 leads).2
  | later _ ih =>
      rw [List.foldlM_cons] at walked
      obtain ⟨first, entered, walked⟩ := bind_eq_ok_iff.mp walked
      rw [(enter_eq_ok_iff.mp entered).1] at walked
      exact ih walked

theorem walk_append (front rest : List String) (start : Place) :
    (front ++ rest).foldlM tree.enter start =
      front.foldlM tree.enter start >>= rest.foldlM tree.enter :=
  List.foldlM_append

theorem walk_slashes (count : Nat) (start : Place) :
    (List.replicate count "").foldlM tree.enter start = .ok start := by
  induction count with
  | zero => rfl
  | succ count ih => exact ih

theorem walk_concat (walked : front.foldlM tree.enter start = .ok reached)
    (there : Files.LeadsOn name →
      name.utf8ByteSize ≤ maxNameSize ∧ tree.find? (reached ++ [name]) = some .directory)
    (count : Nat) :
    (front ++ name :: List.replicate count "").foldlM tree.enter start =
      .ok (leadsTo reached name) := by
  rw [walk_append, walked]
  have entered := enter_eq_ok_iff.mpr ⟨rfl, there⟩
  exact bind_eq_ok_iff.mpr ⟨_, rfl, bind_eq_ok_iff.mpr ⟨_, entered, walk_slashes count _⟩⟩

/-- A place below another that a path leads through. -/
def Passes (tree : FileTree) (path : String) (place : Place) : Prop :=
  ∃ start names, tree.names path = .ok (start, names) ∧ Through start names place

/-- The tree has got some directories, at places of a kind where nothing lay. -/
structure Grown (new : Place → Prop) (tree made : FileTree) : Prop where
  home : made.home = tree.home
  found : ∀ place, made.find? place = tree.find? place ∨
    new place ∧ tree.find? place = none ∧ made.find? place = some .directory

namespace Grown

theorem refl (new : Place → Prop) (tree : FileTree) : Grown new tree tree :=
  ⟨rfl, fun _ => .inl rfl⟩

theorem trans (first : Grown new tree made) (second : Grown new made last) :
    Grown new tree last := by
  refine ⟨second.home.trans first.home, ?_⟩
  intro place
  rcases second.found place with same | ⟨fresh, bare, directory⟩
  · rw [same]
    exact first.found place
  · rcases first.found place with before | ⟨_, _, made⟩
    · exact .inr ⟨fresh, before.symm.trans bare, directory⟩
    · rw [bare] at made
      cases made

theorem kept (grown : Grown new tree made) (place : Place)
    (directory : tree.find? place = some .directory) : made.find? place = some .directory := by
  rcases grown.found place with same | ⟨_, bare, _⟩
  · rw [same, directory]
  · rw [bare] at directory
    cases directory

theorem names_eq (grown : Grown new tree made) (path : String) :
    made.names path = tree.names path := by
  rw [FileTree.names, FileTree.names, grown.home]

theorem passes_eq (grown : Grown new tree made) (path : String) :
    Passes made path = Passes tree path := by
  funext place
  rw [Passes, Passes, grown.names_eq]

end Grown

/-- A directory has been made, and those on the way to it that were missing. Its path leads to a
directory, and nothing else has changed. -/
structure Made (tree : FileTree) (path : String) (inner : Place) (made : FileTree) : Prop where
  stands : Stands made path inner
  grown : Grown (Passes tree path) tree made

theorem Made.walk {inner : Place} (found : Made tree path inner made) :
    ∃ start names, tree.names path = .ok (start, names) ∧
      names.foldlM made.enter start = .ok inner := by
  obtain ⟨start, names, spelt, walked⟩ := found.stands
  rw [found.grown.names_eq] at spelt
  exact ⟨start, names, spelt, walked⟩

theorem exists_slashes (names : List String) :
    ∃ count, names = withoutSlashes names ++ List.replicate count "" := by
  refine ⟨(names.rtakeWhile (· == "")).length, ?_⟩
  have blank : names.rtakeWhile (· == "") =
      List.replicate (names.rtakeWhile (· == "")).length "" := by
    apply List.eq_replicate_of_mem
    intro name member
    have found := List.mem_rtakeWhile_imp member
    exact beq_iff_eq.mp found
  rw [← blank]
  exact List.rdropWhile_append_rtakeWhile.symm

theorem ne_of_withoutSlashes (ends : withoutSlashes names = front ++ [name]) : name ≠ "" := by
  have cut : names.rdropWhile (· == "") = front ++ [name] := ends
  have last := List.rdropWhile_last_not (· == "") names (by simp [cut])
  simpa [cut] using last

theorem withoutSlashes_append_slashes (front : List String) (spelt : name ≠ "") (count : Nat) :
    withoutSlashes (front ++ name :: List.replicate count "") = front ++ [name] := by
  induction count with
  | zero => exact withoutSlashes_concat front spelt
  | succ count ih =>
      rw [List.replicate_succ', ← List.cons_append, ← List.append_assoc, ← ih]
      simp [withoutSlashes]

/-- One directory is made where nothing lies, in one that is there. -/
theorem makeDirectory_eq_ok_iff (spelt : tree.names path = .ok (start, names)) :
    tree.makeDirectory path = .ok next ↔
      ∃ front name count directory, names = front ++ name :: List.replicate count "" ∧
        Files.LeadsOn name ∧ front.foldlM tree.enter start = .ok directory ∧
        name.utf8ByteSize ≤ maxNameSize ∧ tree.find? (directory ++ [name]) = none ∧
        next = tree.put (directory ++ [name]) .directory := by
  constructor
  · intro made
    obtain ⟨⟨begin, given⟩, read, made⟩ := bind_eq_ok_iff.mp made
    obtain ⟨rfl, rfl⟩ := names_unique spelt read
    obtain ⟨⟨directory, last⟩, approached, made⟩ := bind_eq_ok_iff.mp made
    obtain ⟨count, ended⟩ := exists_slashes names
    rcases List.eq_nil_or_concat (withoutSlashes names) with empty | ⟨front, name, cut⟩
    · rw [empty] at approached
      cases approached
      cases made
    rw [List.concat_eq_append] at cut
    rw [cut, approach_concat] at approached
    cases walked : front.foldlM tree.enter start with
    | error e =>
        rw [walked] at approached
        cases approached
    | ok inner =>
        rw [walked] at approached
        obtain ⟨rfl, rfl⟩ := Prod.mk.inj (Except.ok.inj approached)
        by_cases leads : Files.LeadsOn name
        · rw [if_neg (Bool.eq_false_iff.mp (Files.leadsOn_iff.mp leads))] at made
          obtain ⟨place, below, made⟩ := bind_eq_ok_iff.mp made
          obtain ⟨short, rfl⟩ := named_eq_ok_iff.mp below
          rw [cut, List.append_assoc] at ended
          cases bare : tree.find? (inner ++ [name]) with
          | some node =>
              rw [bare] at made
              cases made
          | none =>
              rw [bare] at made
              cases made
              exact ⟨front, name, count, inner, ended, leads, walked, short, bare, rfl⟩
        · rw [Files.leadsOn_iff, Bool.not_eq_false] at leads
          rw [if_pos leads] at made
          cases made
  · rintro ⟨front, name, count, directory, rfl, leads, walked, short, bare, rfl⟩
    have nonempty : name ≠ "" := by
      rintro rfl
      cases leads.1
    have approached : tree.approach start
        (withoutSlashes (front ++ name :: List.replicate count "")) =
          .ok (directory, some name) := by
      rw [withoutSlashes_append_slashes front nonempty, approach_concat, walked,
        Files.leadsOn_iff.mp leads]
      rfl
    refine bind_eq_ok_iff.mpr ⟨_, spelt, bind_eq_ok_iff.mpr ⟨_, approached, ?_⟩⟩
    refine bind_eq_ok_iff.mpr ⟨_, named_eq_ok_iff.mpr ⟨short, rfl⟩, ?_⟩
    rw [bare]
    rfl

open Files (ensureDirectory ensureChain createDirectories leadingPaths pieces parents)

theorem isDirectory_eq (spelt : tree.names path = .ok (start, names)) :
    tree.isDirectory path = (names.foldlM tree.enter start).isOk := by
  rw [isDirectory, spelt]

theorem run_ensureDirectory (tree : FileTree) (path : String) :
    (ensureDirectory (m := StateM FileTree) path).run tree =
      match tree.makeDirectory path with
      | .ok next => (.ok (), next)
      | .error e => (if tree.isDirectory path then .ok () else .error e, tree) := by
  have ran := run_makeDirectory tree path
  cases made : tree.makeDirectory path with
  | ok next =>
      rw [made] at ran
      rw [ensureDirectory, run_bind_eq ran]
      rfl
  | error e =>
      rw [made] at ran
      rw [ensureDirectory, run_bind_eq ran]
      rfl

theorem grown_ensureDirectory {result : Except FileError Unit}
    (ran : (ensureDirectory (m := StateM FileTree) path).run tree = (result, next))
    (along : ∀ place, Passes tree path place → new place) : Grown new tree next := by
  rw [run_ensureDirectory] at ran
  cases made : tree.makeDirectory path with
  | error e =>
      rw [made] at ran
      cases ran
      exact .refl _ tree
  | ok next =>
      rw [made] at ran
      cases ran
      obtain ⟨⟨start, names⟩, spelt, _⟩ := bind_eq_ok_iff.mp made
      obtain ⟨front, name, count, directory, rfl, leads, walked, _, bare, rfl⟩ :=
        (makeDirectory_eq_ok_iff spelt).mp made
      refine ⟨rfl, ?_⟩
      intro place
      by_cases same : place = directory ++ [name]
      · subst same
        refine .inr ⟨along _ ⟨_, _, spelt, ?_⟩, bare, find?_put_self tree .directory (by simp)⟩
        rw [eq_of_walk walked]
        exact through_last start front leads
      · exact .inl (find?_put_of_ne tree .directory same)

/-- Where making a directory has succeeded, the directory stands. -/
theorem walk_of_ensureDirectory (spelt : tree.names path = .ok (start, names))
    (ran : (ensureDirectory (m := StateM FileTree) path).run tree = (.ok (), made)) :
    ∃ inner, names.foldlM made.enter start = .ok inner := by
  have grown : Grown (fun _ => True) tree made := grown_ensureDirectory ran fun _ _ => trivial
  rw [run_ensureDirectory] at ran
  cases tried : tree.makeDirectory path with
  | error e =>
      rw [tried, isDirectory_eq spelt] at ran
      cases walked : names.foldlM tree.enter start with
      | error problem =>
          rw [walked] at ran
          cases ran
      | ok reached =>
          rw [walked] at ran
          cases ran
          exact ⟨reached, walked⟩
  | ok next =>
      rw [tried] at ran
      cases ran
      obtain ⟨front, name, count, directory, rfl, leads, walked, short, _, rfl⟩ :=
        (makeDirectory_eq_ok_iff spelt).mp tried
      have before := foldlM_enter_of_directories grown.kept walked
      exact ⟨_, walk_concat before
        (fun _ => ⟨short, find?_put_self tree .directory (by simp)⟩) count⟩

theorem run_ensureChain_cons (path : String) (above : List String) (tree : FileTree) :
    (ensureChain (m := StateM FileTree) (path :: above)).run tree =
      match (ensureDirectory (m := StateM FileTree) path).run tree with
      | (.error .notFound, next) =>
        match (ensureChain (m := StateM FileTree) above).run next with
        | (.ok (), last) => (ensureDirectory (m := StateM FileTree) path).run last
        | (.error e, last) => (.error e, last)
      | ended => ended := by
  rw [ensureChain]
  rcases first : (ensureDirectory (m := StateM FileTree) path).run tree with ⟨result, next⟩
  rw [run_bind_eq first]
  rcases result with e | _
  · cases e with
    | notFound =>
        rcases second : (ensureChain (m := StateM FileTree) above).run next with ⟨result, last⟩
        dsimp only
        rw [run_bind_eq second, second]
        cases result <;> rfl
    | _ => rfl
  · rfl

theorem grown_ensureChain {paths : List String} {result : Except FileError Unit}
    (ran : (ensureChain (m := StateM FileTree) paths).run tree = (result, next))
    (along : ∀ path ∈ paths, ∀ place, Passes tree path place → new place) :
    Grown new tree next := by
  induction paths generalizing tree next result with
  | nil =>
      cases ran
      exact .refl new tree
  | cons path above ih =>
      have here := along path List.mem_cons_self
      rw [run_ensureChain_cons] at ran
      split at ran
      case h_2 => exact grown_ensureDirectory ran here
      case h_1 first tried =>
        have grown := grown_ensureDirectory tried here
        have rest : ∀ path ∈ above, ∀ place, Passes first path place → new place := by
          intro path member
          rw [grown.passes_eq]
          exact along path (List.mem_cons_of_mem _ member)
        split at ran
        case h_1 last raised =>
          have both := grown.trans (ih raised rest)
          rw [← both.passes_eq] at here
          exact both.trans (grown_ensureDirectory ran here)
        case h_2 last raised =>
          cases ran
          exact grown.trans (ih raised rest)

/-- Where a chain is made, its first directory is made in the end. -/
theorem exists_of_ensureChain {above : List String}
    (ran : (ensureChain (m := StateM FileTree) (path :: above)).run tree = (.ok (), made)) :
    ∃ before, before.home = tree.home ∧
      (ensureDirectory (m := StateM FileTree) path).run before = (.ok (), made) := by
  rw [run_ensureChain_cons] at ran
  split at ran
  case h_2 => exact ⟨tree, rfl, ran⟩
  case h_1 next tried =>
    split at ran
    case h_2 => cases ran
    case h_1 last raised =>
      have first : Grown (fun _ => True) tree next :=
        grown_ensureDirectory tried fun _ _ => trivial
      have second : Grown (fun _ => True) next last :=
        grown_ensureChain raised fun _ _ _ _ => trivial
      exact ⟨last, (first.trans second).home, ran⟩

/-- Where a chain is made, the path of its first directory leads there. -/
theorem walk_of_ensureChain {above : List String} (spelt : tree.names path = .ok (start, names))
    (ran : (ensureChain (m := StateM FileTree) (path :: above)).run tree = (.ok (), made)) :
    ∃ inner, names.foldlM made.enter start = .ok inner := by
  obtain ⟨before, home, ended⟩ := exists_of_ensureChain ran
  apply walk_of_ensureDirectory _ ended
  rw [← spelt, FileTree.names, FileTree.names, home]

theorem names_of_ensureDirectory
    (ran : (ensureDirectory (m := StateM FileTree) path).run tree = (.ok (), made)) :
    ∃ start names, tree.names path = .ok (start, names) := by
  cases spelt : tree.names path with
  | ok read => exact ⟨read.1, read.2, rfl⟩
  | error e =>
      rw [run_ensureDirectory, makeDirectory, isDirectory, spelt] at ran
      cases ran

/-- Where making a directory and those it lies in has succeeded, the directory stands and nothing
but directories on the way has come up. -/
theorem made_createDirectories
    (ran : (createDirectories (m := StateM FileTree) path).run tree = (.ok (), made)) :
    ∃ inner, Made tree path inner made := by
  obtain ⟨before, home, ended⟩ := exists_of_ensureChain ran
  obtain ⟨start, names, read⟩ := names_of_ensureDirectory ended
  have spelt : tree.names path = .ok (start, names) := by
    rw [← read, FileTree.names, FileTree.names, home]
  have grown : Grown (Passes tree path) tree made := by
    apply grown_ensureChain ran
    rintro above member place ⟨begin, given, reads, through⟩
    suffices ∃ front, front <+: names ∧ tree.names above = .ok (start, front) by
      obtain ⟨front, ⟨rest, rfl⟩, found⟩ := this
      obtain ⟨rfl, rfl⟩ := names_unique found reads
      exact ⟨start, _, spelt, through.append rest⟩
    rcases List.mem_cons.mp member with rfl | parent
    · exact ⟨names, List.prefix_rfl, spelt⟩
    · exact names_of_mem_leadingPaths spelt (List.mem_of_mem_drop parent)
  obtain ⟨inner, walked⟩ := walk_of_ensureDirectory read ended
  exact ⟨inner, ⟨start, names, (grown.names_eq path).trans spelt, walked⟩, grown⟩

end Frond.FileTree
