import Frond.Proofs.Files.Directories

/-!
When a directory can be made. It is enough that nothing stands in the way of its path: each name
leads to a directory or to a place where nothing lies. The directories that are missing are then
made one after the other, from above.
-/

namespace Frond.FileTree

open Files (ensureDirectory ensureChain createDirectories leadingPaths pieces parents)

variable {tree made next : FileTree} {path : String} {start reached : Place}
  {names front base : List String} {name : String} {new : Place → Prop}

/-- Nothing stands in the way of a path. -/
structure Open (tree : FileTree) (start : Place) (names : List String) : Prop where
  short : ∀ name ∈ names, Files.LeadsOn name → name.utf8ByteSize ≤ maxNameSize
  bare : ∀ place, Through start names place →
    tree.find? place = none ∨ tree.find? place = some .directory

namespace Open

theorem left {rest : List String} (way : Open tree start (front ++ rest)) :
    Open tree start front :=
  ⟨fun name member => way.short name (List.mem_append_left rest member),
    fun place through => way.bare place (through.append rest)⟩

theorem grown (way : Open tree start names) (grown : Grown new tree made) :
    Open made start names := by
  refine ⟨way.short, ?_⟩
  intro place through
  rcases grown.found place with same | ⟨_, _, directory⟩
  · rw [same]
    exact way.bare place through
  · exact .inr directory

/-- What is passed on the way to a directory that stands in a grown tree was free before. -/
theorem of_walk (grown : Grown new tree made)
    (walked : names.foldlM made.enter start = .ok reached) : Open tree start names := by
  constructor
  · induction names generalizing start with
    | nil => nofun
    | cons first rest ih =>
        rw [List.foldlM_cons] at walked
        obtain ⟨inner, entered, walked⟩ := bind_eq_ok_iff.mp walked
        intro name member leads
        rcases List.mem_cons.mp member with rfl | later
        · exact ((enter_eq_ok_iff.mp entered).2 leads).1
        · exact ih walked name later leads
  · intro place through
    rcases grown.found place with same | ⟨_, bare, _⟩
    · rw [← same]
      exact .inr (directory_of_through walked through)
    · exact .inl bare

/-- On an open way only a missing directory is in the way. -/
theorem walked_or_missing (way : Open tree start names) :
    (∃ reached, names.foldlM tree.enter start = .ok reached) ∨
      names.foldlM tree.enter start = .error .notFound := by
  induction names generalizing start with
  | nil => exact .inl ⟨start, rfl⟩
  | cons name rest ih =>
      rw [List.foldlM_cons]
      by_cases entered : tree.enter start name = .ok (leadsTo start name)
      · rw [entered]
        apply ih
        exact ⟨fun other member => way.short other (List.mem_cons_of_mem name member),
          fun place through => way.bare place (.later through)⟩
      · right
        rw [enter_eq_ok_iff, and_iff_right rfl] at entered
        obtain ⟨leads, missing⟩ := not_forall.mp entered
        have short := way.short name List.mem_cons_self leads
        have bare : tree.find? (start ++ [name]) = none :=
          (way.bare _ (.here leads)).resolve_right fun there => missing ⟨short, there⟩
        have further : ¬(name == "..") = true := fun above => leads.2 (beq_iff_eq.mp above)
        rw [enter, if_neg (Bool.eq_false_iff.mp leads.1), if_neg further,
          if_neg (Nat.not_lt.mpr short), bare]
        rfl

end Open

theorem ensureDirectory_of_isDirectory (stands : tree.isDirectory path = true) :
    ∃ made, (ensureDirectory (m := StateM FileTree) path).run tree = (.ok (), made) := by
  rw [run_ensureDirectory]
  cases tree.makeDirectory path with
  | ok next => exact ⟨next, rfl⟩
  | error e =>
      rw [stands]
      exact ⟨tree, rfl⟩

theorem ensureDirectory_of_walk (count : Nat)
    (spelt : tree.names path = .ok (start, front ++ name :: List.replicate count ""))
    (way : Open tree start (front ++ name :: List.replicate count ""))
    (walked : front.foldlM tree.enter start = .ok reached) :
    ∃ made, (ensureDirectory (m := StateM FileTree) path).run tree = (.ok (), made) := by
  have short := way.short name (List.mem_append_right front List.mem_cons_self)
  by_cases missing : Files.LeadsOn name ∧ tree.find? (reached ++ [name]) = none
  · have made := (makeDirectory_eq_ok_iff spelt).mpr
      ⟨front, name, count, reached, rfl, missing.1, walked, short missing.1, missing.2, rfl⟩
    rw [run_ensureDirectory, made]
    exact ⟨_, rfl⟩
  · apply ensureDirectory_of_isDirectory
    rw [isDirectory_eq spelt, walk_concat walked]
    · rfl
    · intro leads
      have through : Through start (front ++ name :: List.replicate count "") _ :=
        through_last start front leads
      rw [← eq_of_walk walked] at through
      exact ⟨short leads, (way.bare _ through).resolve_left fun bare => missing ⟨leads, bare⟩⟩

/-- A directory is not made in one that is missing. -/
theorem ensureDirectory_of_missing (count : Nat) (nonempty : name ≠ "")
    (spelt : tree.names path = .ok (start, front ++ name :: List.replicate count ""))
    (missing : front.foldlM tree.enter start = .error .notFound) :
    (ensureDirectory (m := StateM FileTree) path).run tree = (.error .notFound, tree) := by
  have tried : tree.makeDirectory path = .error .notFound := by
    rw [makeDirectory, spelt]
    dsimp only [bind, Except.bind]
    rw [withoutSlashes_append_slashes front nonempty, approach_concat, missing]
    rfl
  rw [run_ensureDirectory, tried, isDirectory_eq spelt, walk_append, missing]
  rfl

theorem run_ensureChain_of_made (above : List String)
    (ran : (ensureDirectory (m := StateM FileTree) path).run tree = (.ok (), made)) :
    (ensureChain (m := StateM FileTree) (path :: above)).run tree = (.ok (), made) := by
  rw [run_ensureChain_cons, ran]

theorem run_ensureChain_of_missing {above : List String}
    (missing : (ensureDirectory (m := StateM FileTree) path).run tree = (.error .notFound, tree))
    (raised : (ensureChain (m := StateM FileTree) above).run tree = (.ok (), made)) :
    (ensureChain (m := StateM FileTree) (path :: above)).run tree =
      (ensureDirectory (m := StateM FileTree) path).run made := by
  rw [run_ensureChain_cons, missing]
  dsimp only
  rw [raised]

/-- A chain whose first directory is to stand in one that its other directories lead to. -/
theorem exists_ensureChain_cons {above : List String} (count : Nat) (nonempty : name ≠ "")
    (spelt : tree.names path = .ok (start, front ++ name :: List.replicate count ""))
    (way : Open tree start (front ++ name :: List.replicate count ""))
    (raised : (ensureChain (m := StateM FileTree) above).run tree = (.ok (), made))
    (walked : front.foldlM made.enter start = .ok reached) :
    ∃ last, (ensureChain (m := StateM FileTree) (path :: above)).run tree = (.ok (), last) := by
  rcases way.left.walked_or_missing with ⟨inner, already⟩ | missing
  · obtain ⟨last, ran⟩ := ensureDirectory_of_walk count spelt way already
    exact ⟨last, run_ensureChain_of_made above ran⟩
  · have grown : Grown (fun _ => True) tree made := grown_ensureChain raised fun _ _ _ _ => trivial
    have again := (grown.names_eq path).trans spelt
    obtain ⟨last, ran⟩ := ensureDirectory_of_walk count again (way.grown grown) walked
    rw [run_ensureChain_of_missing (ensureDirectory_of_missing count nonempty spelt missing) raised]
    exact ⟨last, ran⟩

/-- On an open way all directories above are made, down to the last. -/
theorem exists_ensureChain (spelt : tree.names path = .ok (start, names))
    (cut : pieces path = base ++ names) (begins : Begins tree base start names)
    (way : Open tree start names) (part : front <+: names) :
    ∃ made reached,
      (ensureChain (m := StateM FileTree) (leadingPaths (base ++ front).reverse)).run tree =
        (.ok (), made) ∧ front.foldlM made.enter start = .ok reached := by
  induction front using List.reverseRecOn with
  | nil =>
      refine ⟨tree, start, ?_, rfl⟩
      cases begins <;> rfl
  | append_singleton front name ih =>
      obtain ⟨made, reached, raised, walked⟩ := ih ((List.prefix_append front [name]).trans part)
      rw [← List.append_assoc, List.reverse_append, List.reverse_singleton, List.singleton_append,
        leadingPaths]
      by_cases still : Files.isStill name = true
      · rw [if_pos still]
        refine ⟨made, _, raised, walk_concat walked (fun leads => ?_) 0⟩
        rw [leads.1] at still
        cases still
      · have here := names_intercalate spelt cut begins part (by simp)
        have nonempty : name ≠ "" := by
          rintro rfl
          exact still rfl
        have free : Open tree start (front ++ [name]) := by
          obtain ⟨rest, rfl⟩ := part
          exact way.left
        rw [if_neg still, List.reverse_cons, List.reverse_reverse, List.append_assoc]
        obtain ⟨last, ran⟩ := exists_ensureChain_cons 0 nonempty here free raised walked
        obtain ⟨inner, stands⟩ := walk_of_ensureChain here ran
        exact ⟨last, inner, ran, stands⟩

/-- A path that ends in a dot asks for a directory that is there. -/
def Dotted (path : String) : Prop := (withoutSlashes (pieces path)).getLast? = some "."

/-- A directory can be made where nothing stands in its way. -/
theorem createDirectories_of_open (spelt : tree.names path = .ok (start, names))
    (way : Open tree start names)
    (named : Dotted path → ∃ reached, names.foldlM tree.enter start = .ok reached) :
    ∃ made, (createDirectories (m := StateM FileTree) path).run tree = (.ok (), made) := by
  by_cases there : ∃ reached, names.foldlM tree.enter start = .ok reached
  · obtain ⟨reached, walked⟩ := there
    have stands : tree.isDirectory path = true := by
      rw [isDirectory_eq spelt, walked]
      rfl
    obtain ⟨made, ran⟩ := ensureDirectory_of_isDirectory stands
    exact ⟨made, run_ensureChain_of_made _ ran⟩
  · obtain ⟨_, base, cut, begins⟩ := names_eq_ok_iff.mp spelt
    obtain ⟨count, ended⟩ := exists_slashes names
    rcases List.eq_nil_or_concat' (withoutSlashes names) with empty | ⟨front, name, ends⟩
    · rw [empty] at ended
      rw [ended] at there
      exact absurd ⟨start, walk_slashes count start⟩ there
    rw [ends, List.append_assoc, List.singleton_append] at ended
    have nonempty := ne_of_withoutSlashes ends
    have moves : Files.isStill name = false := by
      rw [Files.isStill, Bool.or_eq_false_iff, beq_eq_false_iff_ne, beq_eq_false_iff_ne]
      refine ⟨nonempty, ?_⟩
      rintro rfl
      apply there (named _)
      rw [Dotted, cut, ended, ← List.append_assoc, withoutSlashes_append_slashes _ nonempty,
        List.getLast?_concat]
    have part : front <+: names := ⟨_, ended.symm⟩
    obtain ⟨made, reached, raised, walked⟩ := exists_ensureChain spelt cut begins way part
    subst ended
    rw [← List.append_assoc] at cut
    rw [createDirectories, Files.parents_eq cut moves]
    exact exists_ensureChain_cons count nonempty spelt way raised walked

/-- A directory that stands in some tree with more directories on its way can be made. -/
theorem exists_createDirectories {inner : Place} (possible : Made tree path inner made)
    (named : Dotted path → ∃ place, Stands tree path place) :
    ∃ made, (createDirectories (m := StateM FileTree) path).run tree = (.ok (), made) := by
  obtain ⟨start, names, spelt, walked⟩ := possible.walk
  apply createDirectories_of_open spelt (.of_walk possible.grown walked)
  intro dotted
  obtain ⟨place, stands⟩ := named dotted
  exact ⟨place, stands.walk spelt⟩

namespace Made

variable {inner inner' : Place} {other : FileTree}

theorem unique (first : Made tree path inner made) (second : Made tree path inner' other) :
    inner' = inner := by
  obtain ⟨start, names, spelt, walked⟩ := first.walk
  obtain ⟨_, _, spelt', walked'⟩ := second.walk
  obtain ⟨rfl, rfl⟩ := names_unique spelt spelt'
  exact (eq_of_walk walked').trans (eq_of_walk walked).symm

/-- Two ways to make a directory differ in directories only. -/
theorem find?_eq (first : Made tree path inner made) (second : Made tree path inner' other)
    {place : Place} (free : other.find? place ≠ some .directory) :
    made.find? place = other.find? place := by
  rcases second.grown.found place with same | ⟨_, _, directory⟩
  · rcases first.grown.found place with same' | ⟨passed, _, _⟩
    · rw [same, same']
    · obtain ⟨start, names, spelt, walked⟩ := second.walk
      obtain ⟨_, _, spelt', through⟩ := passed
      obtain ⟨rfl, rfl⟩ := names_unique spelt spelt'
      exact absurd (directory_of_through walked through) free
  · exact absurd directory free

/-- Whichever way a directory is made, the same files can be written into it. -/
theorem writable (first : Made tree path inner made) (second : Made tree path inner' other)
    (file : Files.IsFileName name) {text : String}
    (written : other.write (Files.join path name) text = .ok next) :
    ∃ last, made.write (Files.join path name) text = .ok last := by
  obtain rfl := first.unique second
  obtain ⟨place, node, leads, held, _⟩ := write_eq_ok_iff.mp written
  have free : other.find? place ≠ some .directory := by
    intro directory
    rw [directory] at held
    cases held
  rw [place?_join_iff file second.stands] at leads
  rw [← first.find?_eq second free] at held
  have leads' := (place?_join_iff file first.stands).mpr leads
  exact ⟨_, write_eq_ok_iff.mpr ⟨place, node, leads', held, rfl⟩⟩

end Made

end Frond.FileTree
