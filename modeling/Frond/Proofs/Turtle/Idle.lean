import Frond.Proofs.Expansion.Deletion
import Frond.Turtle.Walk

/-!
What a turtle passes over. A drawing is decided by the word of its text, and of the word only by
the symbols that do something to the turtle.
-/

namespace Frond

/-- Symbols that leave the turtle as it is. -/
def Symbol.idle : Symbol → Bool
  | .x | .y => true
  | _ => false

/-- Characters that a turtle passes over: placeholders and noise. -/
def isIdle (c : Char) : Bool := (Symbol.ofChar? c).all Symbol.idle

variable {α : Type} [Add α] [Sub α] [Mul α] [Trigonometry α]

theorem Walk.step_of_idle (angle length : α) (walk : Walk α) {symbol : Symbol}
    (idle : symbol.idle = true) : walk.step angle length symbol = walk := by
  cases symbol <;> first | rfl | cases idle

theorem Walk.along_filter_idle (angle length : α) (walk : Walk α) (word : List Symbol) :
    walk.along angle length (word.filter (!·.idle)) = walk.along angle length word := by
  induction word generalizing walk with
  | nil => rfl
  | cons symbol rest ih =>
      cases idle : symbol.idle with
      | true =>
          rw [List.filter_cons_of_neg (by simp [idle]), ih, along, along, List.foldl_cons,
            walk.step_of_idle angle length idle]
      | false =>
          rw [List.filter_cons_of_pos (by simp [idle])]
          exact ih (walk.step angle length symbol)

variable [Zero α]

theorem interpret_of_symbols_eq {text other : String} (same : symbols other = symbols text)
    (angle length : α) (start : Point α) :
    interpret other angle length start = interpret text angle length start := by
  simp only [interpret, same]

/-- Placeholders and noise can be deleted from a text that is only walked. -/
theorem interpret_of_idle_deleted {text less : String}
    (deleted : Deletes isIdle text.toList less.toList) (angle length : α) (start : Point α) :
    interpret less angle length start = interpret text angle length start := by
  have busy (other : String) : (symbols other).filter (!·.idle) =
      other.toList.filterMap fun c => (Symbol.ofChar? c).filter (!·.idle) :=
    List.filter_filterMap
  have passed : ∀ c, isIdle c = true → (Symbol.ofChar? c).filter (!·.idle) = none := by
    intro c idle
    unfold isIdle at idle
    cases read : Symbol.ofChar? c with
    | none => rfl
    | some symbol => simp_all
  have words : (symbols less).filter (!·.idle) = (symbols text).filter (!·.idle) := by
    rw [busy, busy, deleted.filterMap_eq passed]
  have walked : (Walk.start start).along angle length (symbols less) =
      (Walk.start start).along angle length (symbols text) := by
    rw [← Walk.along_filter_idle, words, Walk.along_filter_idle]
  simp only [interpret, walked]

end Frond
