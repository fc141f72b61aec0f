import Frond.Turtle.Walk

/-!
A drawing has one segment for every drawing symbol of its text. Brackets have no part in this:
a closing one that is passed over draws nothing, and neither does a pose that is left behind.
-/

namespace Frond

variable {α : Type} [Add α] [Sub α] [Mul α] [Trigonometry α]

namespace Walk

theorem step_segments_size (angle length : α) (walk : Walk α) (symbol : Symbol) :
    (walk.step angle length symbol).segments.size =
      walk.segments.size + if symbol.draws then 1 else 0 := by
  cases symbol with
  | pop =>
      simp only [step, restore, Symbol.draws]
      split <;> rfl
  | _ => simp [step, draw, hop, Symbol.draws]

theorem along_segments_size (angle length : α) (walk : Walk α) (word : List Symbol) :
    (walk.along angle length word).segments.size =
      walk.segments.size + word.countP Symbol.draws := by
  induction word generalizing walk with
  | nil => rfl
  | cons symbol rest ih =>
      have further := ih (walk.step angle length symbol)
      rw [step_segments_size] at further
      rw [List.countP_cons]
      change ((walk.step angle length symbol).along angle length rest).segments.size = _
      omega

end Walk

theorem interpret_segments_length [Zero α] (text : String) (angle length : α) (start : Point α) :
    (interpret text angle length start).segments.length = (symbols text).countP Symbol.draws := by
  have walked := Walk.along_segments_size angle length (Walk.start start) (symbols text)
  simpa [interpret, Walk.start] using walked

end Frond
