import Mathlib
import Frond.Proofs.Geometry.Spans
import Frond.Proofs.Number.Hundredths
import Frond.Proofs.Svg.Numbers

/-!
What is printed stays inside the printed view box. The corner and the sides of a view box are
rounded on their own, as are the points of a path. Rounding keeps the order, so no point comes to
lie before the corner; on the far side three roundings may add up, and a margin of one and a half
hundredths is enough for them.
-/

namespace Frond

theorem decimalValue?_numeralText (x : ℚ) : decimalValue? (numeralText x) = some (rounded x) := by
  rw [numeralText, numeral_rat]
  exact Fixed.decimalValue?_ofHundredths _

theorem blank_not_mem_numeral (x : ℚ) : ' ' ∉ numeral x := by
  intro member
  have plain : Plain (numeralText x) := Fixed.plain_ofRatio _ _ _
  have letter : ' ' ∈ (numeralText x).toList := by
    rw [numeralText, String.toList_ofList]
    exact member
  rcases plain.chars ' ' letter with digit | point | minus
  · cases digit
  · cases point
  · cases minus

/-- A number between two others is printed between the lower one less a margin and that with the
distance and two margins added. -/
theorem rounded_between {low extent c margin : ℚ} (above : low ≤ c) (below : c ≤ low + extent)
    (wide : 3 / 200 ≤ margin) :
    rounded (low - margin) ≤ rounded c ∧
      rounded c ≤ rounded (low - margin) + rounded (extent + (margin + margin)) := by
  constructor
  · apply rounded_mono
    linarith
  · obtain ⟨_, point⟩ := abs_le.mp (abs_rounded_sub_le c)
    obtain ⟨corner, _⟩ := abs_le.mp (abs_rounded_sub_le (low - margin))
    obtain ⟨side, _⟩ := abs_le.mp (abs_rounded_sub_le (extent + (margin + margin)))
    linarith

namespace Box

def map {α β : Type} (f : α → β) (box : Box α) : Box β :=
  ⟨f box.x, f box.y, f box.width, f box.height⟩

/-- What a box contains is printed inside the box with a margin. -/
theorem Contains.rounded {box : Box ℚ} {p : Point ℚ} (inside : box.Contains p) {margin : ℚ}
    (wide : 3 / 200 ≤ margin) :
    ((box.padded margin).map rounded).Contains (p.map rounded) := by
  intro axis
  obtain ⟨above, below⟩ := inside axis
  rw [high_eq] at below ⊢
  have between := rounded_between above below wide
  cases axis
  · exact between
  · exact between

end Box

namespace Svg

/-- The box that the text of a view box spells. -/
def readViewBox (text : String) : Option (Box ℚ) := do
  match ← ((parts text).map String.ofList).mapM decimalValue? with
  | [x, y, width, height] => some ⟨x, y, width, height⟩
  | _ => none

def readPoint (p : Point String) : Option (Point ℚ) := do
  return ⟨← decimalValue? p.x, ← decimalValue? p.y⟩

/-- The pairs of coordinates that the text of a path spells. -/
def readPoints (text : String) : Option (List (Point ℚ)) := do
  (← readPath text).mapM fun command => readPoint command.point

theorem readViewBox_viewBoxText (box : Box ℚ) :
    readViewBox (viewBoxText box) = some (box.map rounded) := by
  rw [readViewBox, parts_viewBoxText blank_not_mem_numeral]
  simp [Box.numbers, decimalValue?_numeralText, Box.map]

theorem readPoint_map (p : Point ℚ) : readPoint (p.map numeralText) = some (p.map rounded) := by
  simp [readPoint, Point.map, decimalValue?_numeralText]

theorem readPoints_pathText (segments : List (Segment ℚ)) :
    readPoints (pathText segments) =
      some ((commandsFrom none segments).map fun command => command.point.map rounded) := by
  have read (command : PenCommand ℚ) :
      readPoint (command.map numeralText).point = some (command.point.map rounded) := by
    cases command <;> exact readPoint_map _
  rw [readPoints, readPath, parts_pathText blank_not_mem_numeral, readCommands_parts]
  simp only [Option.bind_eq_bind, Option.bind_some, List.mapM_map, Function.comp_def, read]
  exact List.mapM_pure

/-- Whatever part of a drawing is shown in the view box of the whole, every pair of coordinates in
the path lies inside the view box as the two are printed. -/
theorem printed_within_viewBox {segments shown : List (Segment ℚ)} (drawn : segments ≠ [])
    (first : shown <+: segments) (fallback : Point ℚ) {margin : ℚ} (wide : 3 / 200 ≤ margin) :
    ∃ view points,
      readViewBox (viewBoxText ((Box.ofSegments segments fallback).padded margin)) = some view ∧
        readPoints (pathText shown) = some points ∧ ∀ p ∈ points, view.Contains p := by
  refine ⟨_, _, readViewBox_viewBoxText _, readPoints_pathText shown, ?_⟩
  intro p member
  obtain ⟨command, listed, rfl⟩ := List.mem_map.mp member
  obtain ⟨segment, part, stands⟩ := exists_end_of_mem_commandsFrom listed
  have stop : command.point ∈ ends segments := ⟨segment, first.subset part, stands⟩
  exact ((Box.spans_ofSegments drawn fallback).contains stop).rounded wide

/-- The first of two lines, with the narrowest margin. The second coordinate of its end, three,
stands in a view box that is printed from two hundredths below zero to a hundredth above three. -/
theorem half_drawing_within_viewBox :
    let line : Segment ℚ := ⟨⟨0, 0⟩, ⟨1 / 8, 3⟩⟩
    let other : Segment ℚ := ⟨⟨1 / 8, 3⟩, ⟨-7, 1 / 3⟩⟩
    let drawing := [line, other]
    (drawing ≠ [] ∧ [line] <+: drawing ∧ (3 / 200 : ℚ) ≤ 3 / 200) ∧
      viewBoxText ((Box.ofSegments drawing .origin).padded (3 / 200)) = "-7.02 -0.02 7.16 3.03" ∧
      pathText [line] = "M0 0 L0.12 3" ∧
      ∃ view points,
        readViewBox "-7.02 -0.02 7.16 3.03" = some view ∧
          readPoints "M0 0 L0.12 3" = some points ∧ ∀ p ∈ points, view.Contains p := by
  intro line other drawing
  have drawn : drawing ≠ [] := List.cons_ne_nil _ _
  have first : [line] <+: drawing := ⟨[other], rfl⟩
  have viewed : viewBoxText ((Box.ofSegments drawing .origin).padded (3 / 200)) =
      "-7.02 -0.02 7.16 3.03" := by
    decide +kernel
  have path : pathText [line] = "M0 0 L0.12 3" := by
    decide +kernel
  have within := printed_within_viewBox drawn first .origin (le_refl (3 / 200 : ℚ))
  rw [viewed, path] at within
  exact ⟨⟨drawn, first, le_rfl⟩, viewed, path, within⟩

end Svg

end Frond
