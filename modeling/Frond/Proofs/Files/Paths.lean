import Frond.Files.Tree
import Frond.Proofs.Text.Cutting

/-!
Paths as rows of names. A path is cut at its slashes and put together again from the parts, so
that the paths above it and the paths of the files in it have the names that one would expect.
-/

namespace Frond

namespace Files

/-- A name that leads below the place that it is met in. -/
def LeadsOn (name : String) : Prop := isStill name = false ∧ name ≠ ".."

/-- A name that can be the last one of a path to a file. -/
def IsFileName (name : String) : Prop := '/' ∉ name.toList ∧ LeadsOn name

theorem leadsOn_iff {name : String} :
    LeadsOn name ↔ (isStill name || name == "..") = false := by
  rw [LeadsOn, Bool.or_eq_false_iff, beq_eq_false_iff_ne]

theorem pieces_ne_nil (path : String) : pieces path ≠ [] := by
  simp [pieces]

theorem slash_not_mem_of_mem_pieces {path part : String} (member : part ∈ pieces path) :
    '/' ∉ part.toList := by
  obtain ⟨letters, cut, rfl⟩ := List.mem_map.mp member
  rw [String.toList_ofList]
  exact not_mem_of_mem_splitOn letters cut

theorem intercalate_pieces (path : String) : "/".intercalate (pieces path) = path := by
  rw [← String.toList_inj, String.toList_intercalate, pieces, List.map_map]
  simp [Function.comp_def]

theorem pieces_intercalate {parts : List String} (nonempty : parts ≠ [])
    (single : ∀ part ∈ parts, '/' ∉ part.toList) : pieces ("/".intercalate parts) = parts := by
  have letters : ∀ part ∈ parts.map String.toList, '/' ∉ part := by
    intro part member
    obtain ⟨text, listed, rfl⟩ := List.mem_map.mp member
    exact single text listed
  have cut := List.splitOn_intercalate '/' letters (by simpa using nonempty)
  rw [pieces, String.toList_intercalate]
  change ((['/'].intercalate (parts.map String.toList)).splitOn '/').map String.ofList = parts
  rw [cut, List.map_map]
  simp [Function.comp_def]

theorem utf8ByteSize_intercalate_le {front parts : List String} (begins : front <+: parts) :
    ("/".intercalate front).utf8ByteSize ≤ ("/".intercalate parts).utf8ByteSize := by
  obtain ⟨rest, rfl⟩ := begins
  by_cases none : front = []
  · simp [none]
  by_cases all : rest = []
  · simp [all]
  rw [String.intercalate_append_of_ne_nil none all]
  simp only [String.utf8ByteSize_append]
  omega

theorem pieces_append (before name : String) (single : '/' ∉ name.toList) :
    pieces (before ++ "/" ++ name) = pieces before ++ [name] := by
  simp [pieces, String.toList_append, List.splitOn_append_cons_self,
    List.splitOn_eq_singleton single]

/-- The path of a name in a directory ends in that name, which comes in place of a slash at the
end of the directory. -/
theorem pieces_join (directory : String) {name : String} (single : '/' ∉ name.toList) :
    ∃ before, pieces (join directory name) = before ++ [name] ∧
      (pieces directory = before ∨ pieces directory = before ++ [""]) := by
  rw [join]
  split
  case isTrue ended =>
    obtain ⟨before, spelt⟩ := String.Slice.endsWith_string_iff.mp ended
    rw [String.copy_toSlice] at spelt
    have parted : directory = String.ofList before ++ "/" ++ "" := by
      rw [← String.toList_inj]
      simp [String.toList_append, ← spelt]
    refine ⟨pieces (String.ofList before), ?_, .inr ?_⟩
    · rw [parted, String.append_empty, pieces_append _ _ single]
    · rw [parted, pieces_append _ _ List.not_mem_nil]
  case isFalse => exact ⟨pieces directory, pieces_append directory name single, .inl rfl⟩

/-- The paths above a path end in a name that is no blank one. -/
theorem mem_leadingPaths {path : String} {reversed : List String}
    (member : path ∈ leadingPaths reversed) :
    ∃ front name, path = "/".intercalate (front ++ [name]) ∧ front ++ [name] <+: reversed.reverse ∧
      isStill name = false := by
  induction reversed with
  | nil => cases member
  | cons name before ih =>
      have shorter : before.reverse <+: (name :: before).reverse := by simp
      rw [leadingPaths] at member
      split at member
      case isTrue =>
        obtain ⟨front, last, spelt, begins, moves⟩ := ih member
        exact ⟨front, last, spelt, begins.trans shorter, moves⟩
      case isFalse moves =>
        rcases List.mem_cons.mp member with rfl | above
        · refine ⟨before.reverse, name, ?_, ?_, Bool.eq_false_iff.mpr moves⟩
          · rw [List.reverse_cons]
          · rw [List.reverse_cons]
        · obtain ⟨front, last, spelt, begins, moves⟩ := ih above
          exact ⟨front, last, spelt, begins.trans shorter, moves⟩

theorem parents_eq {path name : String} {front : List String} {count : Nat}
    (cut : pieces path = front ++ name :: List.replicate count "")
    (moves : isStill name = false) : parents path = leadingPaths front.reverse := by
  have last : leadingPaths (name :: front.reverse) =
      "/".intercalate (name :: front.reverse).reverse :: leadingPaths front.reverse := by
    rw [leadingPaths, if_neg (Bool.eq_false_iff.mp moves)]
  have slashes : leadingPaths (List.replicate count "" ++ name :: front.reverse) =
      leadingPaths (name :: front.reverse) := by
    clear cut
    induction count with
    | zero => rfl
    | succ count ih => exact ih
  rw [parents, cut]
  simp [slashes, last]

end Files

namespace FileTree

open Files (pieces join)

variable {tree : FileTree} {path directory name : String} {start : Place} {names : List String}

/-- What stands before the names of a path: an empty part if it starts at the root. -/
inductive Begins (tree : FileTree) : List String → Place → List String → Prop
  | root {names : List String} (nonempty : names ≠ []) : Begins tree [""] [] names
  | home {names : List String} (first : names.head? ≠ some "") : Begins tree [] tree.home names

theorem names_eq_ok_iff :
    tree.names path = .ok (start, names) ↔
      path.utf8ByteSize ≤ maxPathSize ∧
        ∃ base, pieces path = base ++ names ∧ Begins tree base start names := by
  rw [FileTree.names]
  by_cases long : maxPathSize < path.utf8ByteSize
  · rw [if_pos long]
    exact ⟨nofun, fun read => absurd read.1 (Nat.not_le.mpr long)⟩
  rw [if_neg long, and_iff_right (Nat.not_lt.mp long)]
  constructor
  · intro read
    split at read
    case h_1 => cases read
    case h_2 rest alone cut =>
      cases read
      exact ⟨[""], cut, .root alone⟩
    case h_3 other =>
      cases read
      refine ⟨[], rfl, .home ?_⟩
      intro first
      obtain ⟨rest, cut⟩ := List.head?_eq_some_iff.mp first
      exact other rest cut
  · rintro ⟨base, cut, begins⟩
    rw [cut]
    cases begins with
    | root nonempty =>
        obtain ⟨name, rest, rfl⟩ := List.exists_cons_of_ne_nil nonempty
        rfl
    | home first =>
        rw [List.nil_append]
        split
        case h_1 => exact absurd rfl first
        case h_2 => exact absurd rfl first
        case h_3 => rfl

theorem names_ne_nil (spelt : tree.names path = .ok (start, names)) : names ≠ [] := by
  obtain ⟨_, base, cut, begins⟩ := names_eq_ok_iff.mp spelt
  rintro rfl
  cases begins with
  | root nonempty => exact nonempty rfl
  | home => exact Files.pieces_ne_nil path cut

theorem Begins.shorten {base : List String} (begins : Begins tree base start names)
    {front : List String} (part : front <+: names) (nonempty : front ≠ []) :
    Begins tree base start front := by
  cases begins with
  | root => exact .root nonempty
  | home first =>
      obtain ⟨name, rest, rfl⟩ := List.exists_cons_of_ne_nil nonempty
      obtain ⟨more, rfl⟩ := part
      exact .home first

/-- A path above a path starts where that starts, and has the first of its names. -/
theorem names_intercalate {base front : List String} (spelt : tree.names path = .ok (start, names))
    (cut : pieces path = base ++ names) (begins : Begins tree base start names)
    (part : front <+: names) (nonempty : front ≠ []) :
    tree.names ("/".intercalate (base ++ front)) = .ok (start, front) := by
  have inside : base ++ front <+: pieces path := by
    rw [cut]
    exact (List.prefix_append_right_inj base).mpr part
  have parts : pieces ("/".intercalate (base ++ front)) = base ++ front := by
    apply Files.pieces_intercalate (List.append_ne_nil_of_right_ne_nil base nonempty)
    intro part member
    exact Files.slash_not_mem_of_mem_pieces (inside.subset member)
  have short := Files.utf8ByteSize_intercalate_le inside
  rw [Files.intercalate_pieces] at short
  exact names_eq_ok_iff.mpr
    ⟨short.trans (names_eq_ok_iff.mp spelt).1, base, parts, begins.shorten part nonempty⟩

/-- The paths above a path are those of the first of its names. -/
theorem names_of_mem_leadingPaths {above : String} (spelt : tree.names path = .ok (start, names))
    (member : above ∈ Files.leadingPaths (pieces path).reverse) :
    ∃ front, front <+: names ∧ tree.names above = .ok (start, front) := by
  obtain ⟨_, base, cut, begins⟩ := names_eq_ok_iff.mp spelt
  obtain ⟨front, name, rfl, part, moves⟩ := Files.mem_leadingPaths member
  rw [List.reverse_reverse, cut] at part
  suffices ∃ inner, front ++ [name] = base ++ inner ∧ inner <+: names ∧ inner ≠ [] by
    obtain ⟨inner, same, part, nonempty⟩ := this
    rw [same]
    exact ⟨inner, part, names_intercalate spelt cut begins part nonempty⟩
  cases begins with
  | home => exact ⟨_, rfl, part, by simp⟩
  | root =>
      cases front with
      | nil =>
          obtain ⟨rest, whole⟩ := part
          obtain ⟨rfl, _⟩ := List.cons_eq_cons.mp whole
          cases moves
      | cons first front =>
          obtain ⟨rfl, rest⟩ := List.cons_prefix_cons.mp part
          exact ⟨front ++ [name], rfl, rest, by simp⟩

theorem Begins.concat {base : List String} (begins : Begins tree base start names)
    (nonempty : names ≠ []) {front : List String} (name : String)
    (same : names = front ∨ names = front ++ [""]) : Begins tree base start (front ++ [name]) := by
  cases begins with
  | root => exact .root (List.append_ne_nil_of_right_ne_nil front (List.cons_ne_nil name []))
  | home first =>
      cases front with
      | nil => rcases same with rfl | rfl <;> contradiction
      | cons letter rest =>
          apply Begins.home
          rcases same with rfl | rfl <;> exact first

/-- The path of a file in a directory has the names of the directory and that of the file. -/
theorem names_join (spelt : tree.names directory = .ok (start, names)) (single : '/' ∉ name.toList)
    (short : (join directory name).utf8ByteSize ≤ maxPathSize) :
    ∃ front, tree.names (join directory name) = .ok (start, front ++ [name]) ∧
      (names = front ∨ names = front ++ [""]) := by
  obtain ⟨_, base, cut, begins⟩ := names_eq_ok_iff.mp spelt
  obtain ⟨before, joined, slash⟩ := Files.pieces_join directory single
  have nonempty := names_ne_nil spelt
  have ended : ∃ front, before = base ++ front ∧ (names = front ∨ names = front ++ [""]) := by
    rcases slash with bare | slash
    · exact ⟨names, bare.symm.trans cut, .inl rfl⟩
    · obtain ⟨front, last, rfl⟩ := (List.eq_nil_or_concat' names).resolve_left nonempty
      have whole := slash.symm.trans cut
      rw [← List.append_assoc] at whole
      obtain ⟨rfl, same⟩ := List.append_inj' whole rfl
      exact ⟨front, rfl, .inr (congrArg (front ++ ·) same.symm)⟩
  obtain ⟨front, rfl, same⟩ := ended
  refine ⟨front, names_eq_ok_iff.mpr ⟨short, base, ?_, begins.concat nonempty name same⟩, same⟩
  rw [joined, List.append_assoc]

end FileTree

end Frond
