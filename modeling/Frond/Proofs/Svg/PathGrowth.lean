import Mathlib
import Frond.Proofs.Svg.DrawingTags

/-!
A drawing with more segments. The text of a path grows at its end only: the text of the first
segments is the beginning of the text of more of them. Around the path nothing depends on the
segments.
-/

namespace Frond.Svg

variable {α : Type} [BEq α]

/-- Where the pen is after segments does not depend on what follows them. -/
theorem commandsFrom_append (pen : Option (Point α)) (left right : List (Segment α)) :
    ∃ reached, commandsFrom pen (left ++ right) =
      commandsFrom pen left ++ commandsFrom reached right := by
  induction left generalizing pen with
  | nil => exact ⟨pen, rfl⟩
  | cons segment rest ih =>
      obtain ⟨reached, later⟩ := ih (some segment.stop)
      refine ⟨reached, ?_⟩
      rw [List.cons_append, commandsFrom, commandsFrom, later, List.append_assoc]

theorem commandsFrom_ne_nil (pen : Option (Point α)) {segments : List (Segment α)}
    (drawn : segments ≠ []) : commandsFrom pen segments ≠ [] := by
  cases segments with
  | nil => exact absurd rfl drawn
  | cons segment rest =>
      rw [commandsFrom, penCommands]
      split <;> simp

variable [Numeral α]

theorem pathText_append {left right : List (Segment α)} (shown : left ≠ []) (added : right ≠ []) :
    ∃ more, more ≠ "" ∧ pathText (left ++ right) = pathText left ++ more := by
  obtain ⟨reached, split⟩ := commandsFrom_append none left right
  have first : (commandsFrom none left).map PenCommand.text ≠ [] := by
    simpa using commandsFrom_ne_nil none shown
  have second : (commandsFrom reached right).map PenCommand.text ≠ [] := by
    simpa using commandsFrom_ne_nil reached added
  refine ⟨" " ++ " ".intercalate ((commandsFrom reached right).map PenCommand.text), ?_, ?_⟩
  · simp
  · rw [pathText, pathText, ofSegments_commands, ofSegments_commands, split, List.map_append,
      String.intercalate_append_of_ne_nil first second, String.append_assoc]

/-- More segments make a longer text with the same beginning. -/
theorem pathText_take_lt {segments : List (Segment α)} {shown next : Nat} (positive : 1 ≤ shown)
    (less : shown < next) (bound : next ≤ segments.length) :
    ∃ more, more ≠ "" ∧
      pathText (segments.take next) = pathText (segments.take shown) ++ more := by
  have cut : segments.take next =
      segments.take shown ++ (segments.drop shown).take (next - shown) := by
    rw [← List.take_add, Nat.add_sub_cancel' less.le]
  have first : segments.take shown ≠ [] := by
    intro empty
    have length := congrArg List.length empty
    rw [List.length_take, List.length_nil] at length
    omega
  have second : (segments.drop shown).take (next - shown) ≠ [] := by
    intro empty
    have length := congrArg List.length empty
    rw [List.length_take, List.length_drop, List.length_nil] at length
    omega
  rw [cut]
  exact pathText_append first second

/-- The last element of a document stands on a line of its own before the closing tag. -/
theorem document_append {style : Style} {element : Element} {markup : String}
    (written : element.markup? style = some markup) (viewBox : Box Float)
    (others : List Element) :
    document style viewBox (others ++ [element]) =
      String.join ((lines style viewBox others).map (· ++ newline style)) ++ indent style ++
        markup ++ newline style ++ closing := by
  have last : lines style viewBox (others ++ [element]) =
      lines style viewBox others ++ [indent style ++ markup] := by
    simp [lines, written, indent]
  rw [document, last]
  simp only [List.map_append, List.map_singleton, String.join_append, String.join_cons,
    String.join_nil, String.append_empty, String.append_assoc, newline]

theorem markup?_curve (style : Style) (stroke : String) :
    ∃ before after : String, ∀ segments : List (Segment Float), segments ≠ [] →
      (Element.curve segments stroke).markup? style =
        some (before ++ pathText segments ++ after) := by
  refine ⟨"<path" ++ assigned "class" (Element.className style "curve") ++ " " ++ "d" ++ "=\"",
    "\"" ++ assigned "fill" "none" ++ assigned "stroke" (escape stroke) ++
      assigned "stroke-width" (numeralText style.strokeWidth) ++
      assigned "stroke-linecap" "round" ++ "/>", ?_⟩
  intro segments drawn
  obtain ⟨first, rest, rfl⟩ := List.exists_cons_of_ne_nil drawn
  simp only [Element.markup?, assigned, String.append_assoc]

/-- Only the text of the path tells two drawings in the same view box apart. -/
theorem renderIn_eq_around_path (style : Style) (palette : Palette) (viewBox : Box Float) :
    ∃ before after : String, ∀ segments : List (Segment Float), segments ≠ [] →
      renderIn style palette viewBox segments = before ++ pathText segments ++ after := by
  obtain ⟨before, after, markup⟩ := markup?_curve style palette.line
  let others := (style.title.map Element.title).toList ++
    [.background viewBox palette.background]
  refine ⟨String.join ((lines style viewBox others).map (· ++ newline style)) ++ indent style ++
    before, after ++ newline style ++ closing, ?_⟩
  intro segments drawn
  have added : elements style palette viewBox segments =
      others ++ [.curve segments palette.line] := by
    simp [elements, others]
  rw [renderIn, added, document_append (markup segments drawn)]
  simp only [String.append_assoc]

end Frond.Svg
