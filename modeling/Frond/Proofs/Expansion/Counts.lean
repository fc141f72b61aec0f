import Mathlib
import Frond.Proofs.Expansion.Words

/-!
Growth seen on the numbers of symbols alone. The order of a word does not matter to them: what a
generation does is a linear map, given by how often each symbol stands in each replacement.
-/

namespace Frond

instance : Fintype Symbol := ⟨⟨Symbol.all, by decide⟩, Symbol.mem_all⟩

/-- How often each symbol stands in a word. -/
def occurrences (word : List Symbol) : Symbol → ℕ := fun symbol => word.count symbol

@[simp] theorem occurrences_nil : occurrences [] = 0 := by
  funext symbol
  simp [occurrences]

theorem occurrences_append (left right : List Symbol) :
    occurrences (left ++ right) = occurrences left + occurrences right := by
  funext symbol
  simp [occurrences]

theorem occurrences_cons (first : Symbol) (rest : List Symbol) :
    occurrences (first :: rest) = Pi.single first 1 + occurrences rest := by
  funext symbol
  by_cases same : symbol = first
  · subst same
    simp [occurrences, Nat.add_comm]
  · simp [occurrences, same, Ne.symm same]

namespace Rules

/-- How often a target stands in the replacement of a source. -/
def countMatrix (rules : Rules) : Matrix Symbol Symbol ℕ :=
  Matrix.of fun target source => occurrences (rules.image source) target

theorem countMatrix_mulVec_single (rules : Rules) (source : Symbol) :
    rules.countMatrix.mulVec (Pi.single source 1) = occurrences (rules.image source) := by
  rw [Matrix.mulVec_single_one]
  rfl

theorem occurrences_rewrite (rules : Rules) (word : List Symbol) :
    occurrences (rules.rewrite word) = rules.countMatrix.mulVec (occurrences word) := by
  induction word with
  | nil => simp
  | cons first rest ih =>
      rw [rewrite_cons, occurrences_append, ih, occurrences_cons, Matrix.mulVec_add,
        countMatrix_mulVec_single]

/-- Generations that succeed apply the linear map of the rules as many times. -/
theorem occurrences_generations {rules : Rules} {count : ℕ} {text last : String}
    (grown : rules.generations count text = .ok last) :
    occurrences (symbols last) =
      rules.countMatrix.mulVec^[count] (occurrences (symbols text)) := by
  have step : Function.Semiconj occurrences rules.rewrite rules.countMatrix.mulVec :=
    rules.occurrences_rewrite
  rw [symbols_generations grown]
  exact step.iterate_right count (symbols text)

end Rules

/-! ### Weighed counts -/

/-- A sum of counts in which every symbol has a weight. -/
def weigh (weight : Symbol → ℤ) (counts : Symbol → ℕ) : ℤ :=
  ∑ symbol, weight symbol * counts symbol

@[simp] theorem weigh_zero (weight : Symbol → ℤ) : weigh weight 0 = 0 := by simp [weigh]

theorem weigh_occurrences_cons (weight : Symbol → ℤ) (first : Symbol) (rest : List Symbol) :
    weigh weight (occurrences (first :: rest)) =
      weight first + weigh weight (occurrences rest) := by
  simp only [weigh, occurrences_cons, Pi.add_apply, Nat.cast_add, mul_add,
    Finset.sum_add_distrib]
  congr 1
  simp [Pi.single_apply]

/-- A weight that every replacement multiplies by one factor. -/
def Rules.Scales (rules : Rules) (weight : Symbol → ℤ) (factor : ℤ) : Prop :=
  ∀ source, weigh weight (occurrences (rules.image source)) = factor * weight source

instance (rules : Rules) (weight : Symbol → ℤ) (factor : ℤ) :
    Decidable (rules.Scales weight factor) :=
  inferInstanceAs (Decidable (∀ source,
    weigh weight (occurrences (rules.image source)) = factor * weight source))

namespace Rules.Scales

variable {rules : Rules} {weight : Symbol → ℤ} {factor : ℤ}

theorem weigh_mulVec (scales : rules.Scales weight factor) (counts : Symbol → ℕ) :
    weigh weight (rules.countMatrix.mulVec counts) = factor * weigh weight counts := by
  calc weigh weight (rules.countMatrix.mulVec counts)
      = ∑ target, ∑ source,
          weight target * (occurrences (rules.image source) target * counts source : ℕ) := by
        simp only [weigh, Matrix.mulVec, dotProduct, countMatrix, Matrix.of_apply, Nat.cast_sum,
          Finset.mul_sum]
    _ = ∑ source, weigh weight (occurrences (rules.image source)) * counts source := by
        rw [Finset.sum_comm]
        simp only [weigh, Finset.sum_mul, Nat.cast_mul, mul_assoc]
    _ = ∑ source, factor * weight source * counts source :=
        Finset.sum_congr rfl fun source _ => by rw [scales source]
    _ = factor * weigh weight counts := by
        simp only [weigh, Finset.mul_sum, mul_assoc]

theorem weigh_iterate (scales : rules.Scales weight factor) (count : ℕ) (counts : Symbol → ℕ) :
    weigh weight (rules.countMatrix.mulVec^[count] counts) =
      factor ^ count * weigh weight counts := by
  have step : Function.Semiconj (weigh weight) rules.countMatrix.mulVec (factor * ·) :=
    scales.weigh_mulVec
  rw [step.iterate_right count counts, mul_left_iterate]

end Rules.Scales

end Frond
