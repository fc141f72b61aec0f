import Frond.Proofs.Turtle.Brackets
import Frond.Turtle.MoveCount

/-!
The deepest nesting of a word. A symbol may reach above the depth that it stands at, by a height of
its own; this is how the depth of a word is found before its symbols are replaced.
-/

namespace Frond

/-- The depth after a symbol; a closing bracket with none open counts for nothing. -/
def Symbol.after (symbol : Symbol) (depth : Nat) : Nat :=
  match symbol with
  | .push => depth + 1
  | .pop => depth - 1
  | _ => depth

theorem Symbol.after_of_nest {symbol : Symbol} {depth next : Nat}
    (nested : symbol.nest depth = some next) : symbol.after depth = next := by
  cases symbol with
  | pop =>
      cases depth with
      | zero => cases nested
      | succ depth => cases nested; rfl
  | _ => cases nested; rfl

/-- The deepest place that a word reaches from a depth. -/
def peak (heights : Symbol → Nat) : Nat → List Symbol → Nat
  | depth, [] => depth
  | depth, symbol :: rest => max (depth + heights symbol) (peak heights (symbol.after depth) rest)

section

variable {heights : Symbol → Nat}

@[simp] theorem peak_nil (depth : Nat) : peak heights depth [] = depth := rfl

@[simp] theorem peak_cons (depth : Nat) (symbol : Symbol) (rest : List Symbol) :
    peak heights depth (symbol :: rest) =
      max (depth + heights symbol) (peak heights (symbol.after depth) rest) := rfl

theorem le_peak (depth : Nat) (word : List Symbol) : depth ≤ peak heights depth word := by
  cases word with
  | nil => exact Nat.le_refl depth
  | cons symbol rest => exact Nat.le_trans (Nat.le_add_right ..) (Nat.le_max_left ..)

theorem peak_append {depth final : Nat} {left : List Symbol} (right : List Symbol)
    (nested : nesting depth left = some final) :
    peak heights depth (left ++ right) =
      max (peak heights depth left) (peak heights final right) := by
  induction left generalizing depth with
  | nil =>
      cases nested
      exact (Nat.max_eq_right (le_peak _ right)).symm
  | cons symbol rest ih =>
      rw [nesting_cons, Option.bind_eq_some_iff] at nested
      obtain ⟨next, first, further⟩ := nested
      rw [List.cons_append, peak_cons, peak_cons, Symbol.after_of_nest first, ih further,
        Nat.max_assoc]

/-- A word that closes nothing below its start reaches as far above any other start. -/
theorem peak_add {depth final : Nat} {word : List Symbol} (base : Nat)
    (nested : nesting depth word = some final) :
    peak heights (base + depth) word = base + peak heights depth word := by
  induction word generalizing depth with
  | nil => rfl
  | cons symbol rest ih =>
      rw [nesting_cons, Option.bind_eq_some_iff] at nested
      obtain ⟨next, first, further⟩ := nested
      rw [peak_cons, peak_cons, Symbol.after_of_nest (Symbol.nest_add base first),
        Symbol.after_of_nest first, ih further, Nat.add_assoc, Nat.add_max_add_left]

end

/-! ### The counted depth -/

theorem MoveTally.step_depth (tally : MoveTally) (symbol : Symbol) :
    (tally.step symbol).depth = symbol.after tally.depth := by
  cases symbol <;> rfl

theorem MoveTally.step_maxDepth {tally : MoveTally} (symbol : Symbol)
    (reached : tally.depth ≤ tally.count.maxDepth) :
    (tally.step symbol).count.maxDepth =
      max tally.count.maxDepth (symbol.after tally.depth) := by
  cases symbol <;> simp only [step, Symbol.after] <;> omega

/-- No symbol has a height where the brackets themselves are counted. -/
theorem MoveTally.foldl_maxDepth {tally : MoveTally} (word : List Symbol)
    (reached : tally.depth ≤ tally.count.maxDepth) :
    (word.foldl step tally).count.maxDepth =
      max tally.count.maxDepth (peak (fun _ => 0) tally.depth word) := by
  induction word generalizing tally with
  | nil => exact (Nat.max_eq_left reached).symm
  | cons symbol rest ih =>
      have deepest := step_maxDepth symbol reached
      have stays : (tally.step symbol).depth ≤ (tally.step symbol).count.maxDepth := by
        rw [step_depth, deepest]
        exact Nat.le_max_right ..
      have above : symbol.after tally.depth ≤ peak (fun _ => 0) (symbol.after tally.depth) rest :=
        le_peak ..
      rw [List.foldl_cons, ih stays, step_depth, deepest, peak_cons]
      omega

theorem countMoves_maxDepth (text : String) :
    (countMoves text).maxDepth = peak (fun _ => 0) 0 (symbols text) := by
  rw [countMoves, MoveTally.foldl_maxDepth _ (Nat.le_refl 0)]
  exact Nat.zero_max _

end Frond
