import Frond.Proofs.Expansion.Words
import Frond.Proofs.Turtle.Depth

/-!
Growth and brackets. Rules that keep the brackets and put balanced texts in the place of every
other symbol keep the nesting of a word, and what they add to its depth is known symbol by symbol.
-/

namespace Frond

namespace Rules

/-- Rules that branch: the brackets stay, and every other symbol grows into a balanced text. -/
structure Branching (rules : Rules) : Prop where
  push : rules.fixes .push = true
  pop : rules.fixes .pop = true
  others : ∀ symbol, symbol ≠ .push → symbol ≠ .pop → Balanced (rules.replacement symbol)

theorem image_of_fixes {rules : Rules} {symbol : Symbol} (fixed : rules.fixes symbol = true) :
    rules.image symbol = [symbol] := by
  rw [fixes, beq_iff_eq] at fixed
  simp [image, fixed, symbols]

namespace Branching

variable {rules : Rules}

theorem nesting_image (branching : rules.Branching) (depth : Nat) (symbol : Symbol) :
    nesting depth (rules.image symbol) = symbol.nest depth := by
  by_cases opens : symbol = .push
  · rw [opens, image_of_fixes branching.push, nesting_cons]
    simp
  by_cases closes : symbol = .pop
  · rw [closes, image_of_fixes branching.pop, nesting_cons]
    simp
  have balanced := balanced_iff.mp (branching.others symbol opens closes)
  rw [Symbol.nest_of_ne depth opens closes]
  exact nesting_of_closed balanced depth

theorem nesting_rewrite (branching : rules.Branching) (depth : Nat) (word : List Symbol) :
    nesting depth (rules.rewrite word) = nesting depth word := by
  induction word generalizing depth with
  | nil => rfl
  | cons symbol rest ih =>
      simp only [rewrite_cons, nesting_append, nesting_cons, branching.nesting_image, ih]

theorem nesting_iterate (branching : rules.Branching) (depth count : Nat) (word : List Symbol) :
    nesting depth (rules.rewrite^[count] word) = nesting depth word := by
  have step : Function.Semiconj (nesting depth) rules.rewrite id :=
    branching.nesting_rewrite depth
  rw [step.iterate_right count word, Function.iterate_id]
  rfl

theorem balanced_generations (branching : rules.Branching) {count : Nat} {text last : String}
    (balanced : Balanced text) (grown : rules.generations count text = .ok last) :
    Balanced last := by
  rw [balanced_iff, symbols_generations grown, branching.nesting_iterate]
  exact balanced_iff.mp balanced

end Branching

/-- How high a symbol reaches whose replacement is given by heights of its own. A bracket reaches
no higher than before. -/
def raise (rules : Rules) (heights : Symbol → Nat) : Symbol → Nat
  | .push => heights .push
  | .pop => heights .pop
  | symbol => peak heights 0 (rules.image symbol)

theorem raise_of_ne {rules : Rules} {symbol : Symbol} (heights : Symbol → Nat)
    (opens : symbol ≠ .push) (closes : symbol ≠ .pop) :
    rules.raise heights symbol = peak heights 0 (rules.image symbol) := by
  cases symbol <;> first | rfl | contradiction

namespace Branching

variable {rules : Rules} {heights : Symbol → Nat}

theorem peak_image_append (branching : rules.Branching) (depth : Nat) (symbol : Symbol)
    (right : List Symbol) :
    peak heights depth (rules.image symbol ++ right) =
      max (depth + rules.raise heights symbol) (peak heights (symbol.after depth) right) := by
  by_cases opens : symbol = .push
  · rw [opens, image_of_fixes branching.push]
    rfl
  by_cases closes : symbol = .pop
  · rw [closes, image_of_fixes branching.pop]
    rfl
  have stays := Symbol.nest_of_ne depth opens closes
  have closed := balanced_iff.mp (branching.others symbol opens closes)
  have nested := branching.nesting_image depth symbol
  rw [stays] at nested
  have reached : peak heights depth (rules.image symbol) =
      depth + peak heights 0 (rules.image symbol) := peak_add depth closed
  rw [peak_append right nested, reached, raise_of_ne heights opens closes,
    Symbol.after_of_nest stays]

theorem peak_rewrite (branching : rules.Branching) (depth : Nat) (word : List Symbol) :
    peak heights depth (rules.rewrite word) = peak (rules.raise heights) depth word := by
  induction word generalizing depth with
  | nil => rfl
  | cons symbol rest ih =>
      rw [rewrite_cons, branching.peak_image_append, ih, peak_cons]

theorem peak_iterate (branching : rules.Branching) (depth count : Nat) (word : List Symbol) :
    peak heights depth (rules.rewrite^[count] word) =
      peak (rules.raise^[count] heights) depth word := by
  induction count generalizing word with
  | zero => rfl
  | succ count ih =>
      rw [Function.iterate_succ_apply, ih, branching.peak_rewrite, Function.iterate_succ_apply']

theorem maxDepth_generations (branching : rules.Branching) {count : Nat} {text last : String}
    (grown : rules.generations count text = .ok last) :
    (countMoves last).maxDepth = peak (rules.raise^[count] fun _ => 0) 0 (symbols text) := by
  rw [countMoves_maxDepth, symbols_generations grown, branching.peak_iterate]

end Branching

end Rules

end Frond
