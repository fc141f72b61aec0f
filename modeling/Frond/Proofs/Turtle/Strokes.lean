import Frond.Proofs.Turtle.Continuation
import Frond.Proofs.Turtle.SegmentCount

/-!
Segments and strokes. The characters of a text that leave a segment behind are its strokes; the
segment of a stroke is drawn by the turtle that the text before the stroke leads to, and the text
after it has no part in that segment.
-/

namespace Frond

/-- The characters that leave a segment behind. -/
def isStroke (c : Char) : Bool := c == 'A' || c == 'B' || c == 'F'

/-- How many segments a text leaves behind. -/
def strokes (text : String) : Nat := text.toList.countP isStroke

theorem strokes_append (before after : String) :
    strokes (before ++ after) = strokes before + strokes after := by
  rw [strokes, String.toList_append, List.countP_append]
  rfl

theorem isStroke_iff {c : Char} :
    isStroke c = true ↔ ∃ symbol, Symbol.ofChar? c = some symbol ∧ symbol.draws = true := by
  constructor
  · intro stroke
    simp only [isStroke, Bool.or_eq_true, beq_iff_eq] at stroke
    rcases stroke with (rfl | rfl) | rfl
    · exact ⟨.a, rfl, rfl⟩
    · exact ⟨.b, rfl, rfl⟩
    · exact ⟨.f, rfl, rfl⟩
  · rintro ⟨symbol, known, draws⟩
    obtain rfl := Symbol.ofChar?_eq_some_iff.mp known
    cases symbol <;> first | rfl | cases draws

theorem countP_draws_symbols (text : String) :
    (symbols text).countP Symbol.draws = strokes text := by
  rw [countP_symbols, strokes]
  refine List.countP_congr ?_
  intro c _
  rw [isStroke_iff, Option.any_eq_true]

variable {α : Type} [Add α] [Sub α] [Mul α] [Trigonometry α]

theorem Walk.step_of_draws (angle length : α) (walk : Walk α) {symbol : Symbol}
    (draws : symbol.draws = true) : walk.step angle length symbol = walk.draw length := by
  cases symbol <;> first | rfl | cases draws

/-- The segment of a drawing symbol goes one step ahead from the pose that the word before leads to,
whatever comes after. -/
theorem Walk.getElem?_along_draws (angle length : α) (walk : Walk α) (before after : List Symbol)
    {symbol : Symbol} (draws : symbol.draws = true) :
    let reached := walk.along angle length before
    (walk.along angle length (before ++ symbol :: after)).segments.toList[reached.segments.size]? =
      some ⟨reached.pose.position, reached.pose.ahead length⟩ := by
  intro reached
  have drawn : walk.along angle length (before ++ symbol :: after) =
      (reached.draw length).along angle length after := by
    rw [along_append, ← step_of_draws angle length reached draws]
    rfl
  obtain ⟨later, whole⟩ := segments_prefix_along angle length (reached.draw length) after
  rw [drawn, ← whole, draw, Array.toList_push, List.append_assoc,
    List.getElem?_append_right (by simp)]
  simp

variable [Zero α]

theorem Walk.size_along_start (angle length : α) (start : Point α) (text : String) :
    ((Walk.start start).along angle length (symbols text)).segments.size = strokes text := by
  rw [along_segments_size, countP_draws_symbols]
  exact Nat.zero_add _

theorem segments_prefix_interpret (before after : String) (angle length : α) (start : Point α) :
    (interpret before angle length start).segments <+:
      (interpret (before ++ after) angle length start).segments := by
  rw [interpret_append]
  exact Walk.segments_prefix_along angle length _ (symbols after)

/-- A drawing has as many segments as its text has strokes. The segment of each stroke, found at the
number of strokes before it, goes from where the text before leads to the point one step ahead of
that pose. So what a text draws begins with what any of its prefixes draws. -/
theorem segments_of_strokes (angle length : α) (start : Point α) :
    (∀ text, (interpret text angle length start).segments.length = strokes text) ∧
    (∀ before c after, isStroke c = true →
      (interpret (before ++ String.singleton c ++ after) angle length start).segments[strokes before]? =
        some ⟨(interpret before angle length start).final.position,
          (interpret before angle length start).final.ahead length⟩) ∧
    ∀ before after, (interpret before angle length start).segments <+:
      (interpret (before ++ after) angle length start).segments := by
  refine ⟨?_, ?_, ?_⟩
  · intro text
    rw [interpret_segments_length, countP_draws_symbols]
  · intro before c after stroke
    obtain ⟨symbol, known, draws⟩ := isStroke_iff.mp stroke
    have word : symbols (before ++ String.singleton c ++ after) =
        symbols before ++ symbol :: symbols after := by
      simp [symbols, known]
    have place : ((Walk.start start).along angle length (symbols before)).segments.size =
        strokes before := by
      rw [← countP_draws_symbols, ← interpret_segments_length before angle length start]
      rfl
    have drawn := Walk.getElem?_along_draws angle length (Walk.start start) (symbols before)
      (symbols after) draws
    simp only [place, ← word] at drawn
    exact drawn
  · intro before after
    exact segments_prefix_interpret before after angle length start

/-- A stroke in a branch that is left open, after a bracket that is passed over and a character of
several bytes. -/
theorem stroke_in_open_branch :
    let start : Point Float := ⟨1, 2⟩
    let trunk := interpret "]éF[+" 0.5 10 start
    let whole := interpret "]éF[+B[f]A" 0.5 10 start
    isStroke 'B' = true ∧ whole.segments.length = 3 ∧
      whole.segments[1]? = some ⟨trunk.final.position, trunk.final.ahead 10⟩ ∧
      trunk.segments <+: whole.segments := by
  intro start trunk whole
  obtain ⟨counted, placed, begun⟩ := segments_of_strokes 0.5 10 start
  exact ⟨by decide, counted "]éF[+B[f]A", placed "]éF[+" 'B' "[f]A" (by decide),
    begun "]éF[+" "B[f]A"⟩

end Frond
