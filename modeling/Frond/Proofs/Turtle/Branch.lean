import Frond.Proofs.Turtle.Strokes

/-!
Branches. A balanced text between brackets adds its own segments to a drawing and nothing else: the
turtle comes back to the pose that it left, finds its stack as it was, and goes on as it would have
done without the branch.
-/

namespace Frond

variable {α : Type} [Add α] [Sub α] [Mul α] [Trigonometry α]

namespace Walk

theorem along_branch (angle length : α) (walk : Walk α) {word : List Symbol}
    (closed : nesting 0 word = some 0) :
    ∃ branch : Array (Segment α), branch.size = word.countP Symbol.draws ∧
      walk.along angle length (.push :: (word ++ [.pop])) =
        { walk with segments := walk.segments ++ branch } := by
  -- The branch is walked with an empty stack, and its root is put under it afterwards.
  let root : Walk α := { walk with saved := {} }
  let base := walk.pose :: walk.saved.poses
  let tip := root.along angle length word
  have rooted : walk.step angle length .push = root.above base := rfl
  have opened : nesting root.saved.size word = some 0 := closed
  obtain ⟨emptied, kept⟩ := along_saved angle length opened
  have walked : walk.along angle length (.push :: (word ++ [.pop])) =
      (tip.above base).restore := by
    rw [← along_above angle length base opened, ← rooted]
    simp only [along, List.foldl_cons, List.foldl_append]
    rfl
  have drawn : tip.segments = walk.segments ++ (root.blank.along angle length word).segments :=
    congrArg Walk.segments (along_eq_behind angle length root word)
  refine ⟨(root.blank.along angle length word).segments, ?_, ?_⟩
  · rw [along_segments_size]
    exact Nat.zero_add _
  · have returning : (tip.above base).saved.poses = walk.pose :: walk.saved.poses := by
      rw [above, List.eq_nil_of_length_eq_zero emptied]
      rfl
    have passed : tip.underflows = walk.underflows := kept
    rw [walked, restore_of_cons returning, ← drawn, ← passed]
    rfl

end Walk

variable [Zero α]

/-- A branch leaves everything outside it as it is. The text with the branch ends in the pose of the
text without it and has as many brackets without a partner; what it draws is what the text before
draws, then one segment for each stroke of the branch, then what else the text without the branch
draws. -/
theorem branch_adds_segments (before inner after : String) (balanced : Balanced inner)
    (angle length : α) (start : Point α) :
    let trunk := interpret before angle length start
    let plain := interpret (before ++ after) angle length start
    let branched := interpret (before ++ "[" ++ inner ++ "]" ++ after) angle length start
    branched.final = plain.final ∧ branched.underflows = plain.underflows ∧
      branched.leftover = plain.leftover ∧
      ∃ branch rest, branch.length = strokes inner ∧
        plain.segments = trunk.segments ++ rest ∧
        branched.segments = trunk.segments ++ branch ++ rest := by
  intro trunk plain branched
  let walk := (Walk.start start).along angle length (symbols before)
  let onward := walk.blank.along angle length (symbols after)
  obtain ⟨branch, size, walked⟩ := walk.along_branch angle length (balanced_iff.mp balanced)
  have straight : plain = (onward.behind walk.segments).drawing := by
    rw [← walk.along_eq_behind angle length (symbols after)]
    exact interpret_append before after angle length start
  have around : branched = (onward.behind (walk.segments ++ branch)).drawing := by
    have word : symbols (before ++ "[" ++ inner ++ "]") =
        symbols before ++ .push :: (symbols inner ++ [.pop]) := by
      simp only [symbols_append, List.append_assoc]
      rfl
    have entered := interpret_append (before ++ "[" ++ inner ++ "]") after angle length start
    rw [word, Walk.along_append, walked, ← walk.blank_behind, Walk.along_behind] at entered
    exact entered
  rw [straight, around]
  refine ⟨rfl, rfl, rfl, branch.toList, onward.segments.toList, ?_, ?_, ?_⟩
  · rw [Array.length_toList, size, countP_draws_symbols]
  · exact Array.toList_append
  · rw [Walk.drawing, Walk.behind, Array.toList_append, Array.toList_append]
    rfl

/-- A branch within a branch, where a bracket is missing before it and another one after it. -/
theorem nested_branch_adds_segments :
    let start : Point Float := ⟨1, 2⟩
    let trunk := interpret "]F[+" 0.5 10 start
    let plain := interpret "]F[+f]]é[A" 0.5 10 start
    let branched := interpret "]F[+[-B[F]X]f]]é[A" 0.5 10 start
    Balanced "-B[F]X" ∧
      branched.final = plain.final ∧ branched.underflows = plain.underflows ∧
      branched.leftover = plain.leftover ∧
      ∃ branch rest, branch.length = 2 ∧ plain.segments = trunk.segments ++ rest ∧
        branched.segments = trunk.segments ++ branch ++ rest := by
  intro start trunk plain branched
  have balanced : Balanced "-B[F]X" := by decide
  exact ⟨balanced, branch_adds_segments "]F[+" "-B[F]X" "f]]é[A" balanced 0.5 10 start⟩

end Frond
