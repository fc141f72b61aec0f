import Mathlib
import Frond.Number.Binary64

/-!
Rounding to whole numbers of either sign. There is one whole number that is nearest to a value and
even where there are two, and it is the one that exact division finds. It does not fall when the
value rises, and is half a unit away at most; so a value is printed in hundredths in one way only.
-/

namespace Frond

/-- A whole number is nearest to a value, and even where another one is just as near. -/
structure NearestEven (k : ℤ) (x : ℚ) : Prop where
  close : |k - x| ≤ 1 / 2
  even : |k - x| = 1 / 2 → Even k

namespace NearestEven

variable {j k : ℤ} {x y : ℚ}

theorem neg (nearest : NearestEven k x) : NearestEven (-k) (-x) := by
  have same : |((-k : ℤ) : ℚ) - -x| = |k - x| := by
    rw [← abs_neg]
    push_cast
    ring_nf
  constructor
  · rw [same]
    exact nearest.close
  · intro half
    rw [same] at half
    exact (nearest.even half).neg

/-- Rounding keeps the order. Only in the middle of two whole numbers could it turn around, and
there both are even. -/
theorem le_of_le (first : NearestEven j x) (second : NearestEven k y) (less : x ≤ y) : j ≤ k := by
  by_contra above
  have next : (k : ℚ) + 1 ≤ j := by exact_mod_cast not_le.mp above
  obtain ⟨_, upper⟩ := abs_le.mp first.close
  obtain ⟨lower, _⟩ := abs_le.mp second.close
  have half : (j : ℚ) - x = 1 / 2 := by linarith
  have half' : (k : ℚ) - y = -(1 / 2) := by linarith
  have follows : j = k + 1 := by
    have sum : (j : ℚ) = k + 1 := by linarith
    exact_mod_cast sum
  have even : Even j := first.even (by rw [half]; norm_num)
  have even' : Even k := second.even (by rw [half']; norm_num)
  rw [follows] at even
  exact Int.even_add_one.mp even even'

theorem unique (first : NearestEven j x) (second : NearestEven k x) : j = k :=
  le_antisymm (first.le_of_le second le_rfl) (second.le_of_le first le_rfl)

end NearestEven

theorem nearestEven_intCast (k : ℤ) : NearestEven k k := by
  constructor <;> norm_num

theorem nearestEven_zero_iff (x : ℚ) : NearestEven 0 x ↔ |x| ≤ 1 / 2 := by
  constructor
  · intro nearest
    simpa using nearest.close
  · intro close
    constructor
    · simpa using close
    · intro _
      exact Even.zero

theorem nearestEven_add_of_lt {k : ℤ} {rest : ℚ} (positive : 0 ≤ rest) (less : rest < 1 / 2) :
    NearestEven k (k + rest) := by
  have away : |(k : ℚ) - (k + rest)| = rest := by
    rw [sub_add_cancel_left, abs_neg, abs_of_nonneg positive]
  rw [← away] at less
  exact ⟨less.le, fun half => absurd half less.ne⟩

theorem nearestEven_add_of_gt {k : ℤ} {rest : ℚ} (more : 1 / 2 < rest) (less : rest < 1) :
    NearestEven (k + 1) (k + rest) := by
  have away : |((k + 1 : ℤ) : ℚ) - (k + rest)| = 1 - rest := by
    have difference : ((k + 1 : ℤ) : ℚ) - (k + rest) = 1 - rest := by
      push_cast
      ring
    rw [difference, abs_of_pos (sub_pos.mpr less)]
  have near : |((k + 1 : ℤ) : ℚ) - (k + rest)| < 1 / 2 := by
    rw [away]
    linarith
  exact ⟨near.le, fun half => absurd half near.ne⟩

theorem nearestEven_half {j k : ℤ} (beside : j = k ∨ j = k + 1) (even : Even j) :
    NearestEven j (k + 1 / 2) := by
  refine ⟨?_, fun _ => even⟩
  rcases beside with rfl | rfl
  · rw [sub_add_cancel_left, abs_neg, abs_of_pos (by norm_num)]
  · push_cast
    rw [add_sub_add_left_eq_sub]
    norm_num

namespace NearestEven

variable {j k : ℤ} {x : ℚ}

theorem le_of_le_intCast (nearest : NearestEven j x) (below : x ≤ k) : j ≤ k :=
  nearest.le_of_le (nearestEven_intCast k) below

theorem ge_of_intCast_le (nearest : NearestEven j x) (above : k ≤ x) : k ≤ j :=
  (nearestEven_intCast k).le_of_le nearest above

/-- Rounding does not go beyond an even number from a value that is at most a half above it. -/
theorem le_of_le_half (nearest : NearestEven j x) (even : Even k) (below : x ≤ k + 1 / 2) :
    j ≤ k :=
  nearest.le_of_le (nearestEven_half (.inl rfl) even) below

theorem eq_of_close (nearest : NearestEven j x) (close : |x - k| < 1 / 2) : j = k := by
  rw [abs_sub_comm] at close
  exact nearest.unique ⟨close.le, fun half => absurd half close.ne⟩

end NearestEven

theorem nearestEven_roundHalfEven (num : Nat) {den : Nat} (positive : 0 < den) :
    NearestEven (roundHalfEven num den) (num / den) := by
  have unit : (0 : ℚ) < den := by exact_mod_cast positive
  have split : (num : ℚ) / den = (num / den : Nat) + (num % den : Nat) / den := by
    rw [div_eq_iff unit.ne', add_mul, div_mul_cancel₀ _ unit.ne']
    exact_mod_cast (Nat.div_add_mod' num den).symm
  have less := Nat.mod_lt num positive
  rw [split, roundHalfEven]
  generalize num / den = k at *
  generalize num % den = rest at *
  rcases lt_trichotomy (2 * rest) den with low | middle | high
  · rw [if_neg (by omega)]
    apply nearestEven_add_of_lt
    · positivity
    · rw [div_lt_div_iff₀ unit two_pos]
      exact_mod_cast (by omega : rest * 2 < 1 * den)
  · have half : (rest : ℚ) / den = 1 / 2 := by
      rw [div_eq_div_iff unit.ne' two_ne_zero]
      exact_mod_cast (by omega : rest * 2 = 1 * den)
    rw [half]
    split
    case isTrue odd =>
      apply nearestEven_half (k := k) (.inr (Nat.cast_succ k))
      rw [Int.even_iff]
      omega
    case isFalse even =>
      apply nearestEven_half (k := k) (.inl rfl)
      rw [Int.even_iff]
      omega
  · rw [if_pos (.inl high)]
    apply nearestEven_add_of_gt (k := k)
    · rw [div_lt_div_iff₀ two_pos unit]
      exact_mod_cast (by omega : 1 * den < rest * 2)
    · rw [div_lt_one unit]
      exact_mod_cast less

/-- A number of the given sign. -/
def withSign {α : Type} [Neg α] (negative : Bool) (magnitude : α) : α :=
  if negative then -magnitude else magnitude

theorem NearestEven.withSign {k : ℤ} {x : ℚ} (nearest : NearestEven k x) (negative : Bool) :
    NearestEven (withSign negative k) (withSign negative x) := by
  cases negative with
  | false => exact nearest
  | true => exact nearest.neg

theorem exists_withSign (k : ℤ) : ∃ negative, ∃ n : Nat, k = withSign negative (n : ℤ) := by
  rcases Int.natAbs_eq k with above | below
  · exact ⟨false, _, above⟩
  · exact ⟨true, _, below⟩

theorem withSign_mul (negative : Bool) (c x : ℚ) :
    withSign negative (c * x) = c * withSign negative x := by
  cases negative with
  | false => rfl
  | true => exact (mul_neg c x).symm

theorem withSign_abs (x : ℚ) : withSign (decide (x < 0)) |x| = x := by
  by_cases negative : x < 0
  · simp [withSign, negative, abs_of_neg]
  · simp [withSign, negative, abs_of_nonneg (not_lt.mp negative)]

theorem natAbs_num_div_den (x : ℚ) : (x.num.natAbs : ℚ) / x.den = |x| := by
  calc (x.num.natAbs : ℚ) / x.den = |(x.num : ℚ)| / |(x.den : ℚ)| := by
        rw [Nat.cast_natAbs, Int.cast_abs, Nat.abs_cast]
    _ = |x| := by rw [← abs_div, Rat.num_div_den]

/-- The hundredths that a value has when it is rounded to them. -/
def hundredths (x : ℚ) : ℤ :=
  withSign (decide (x < 0)) (roundHalfEven (x.num.natAbs * 100) x.den)

theorem nearestEven_hundredths (x : ℚ) : NearestEven (hundredths x) (100 * x) := by
  have magnitude := nearestEven_roundHalfEven (x.num.natAbs * 100) x.den_pos
  have signed := magnitude.withSign (decide (x < 0))
  have value : withSign (decide (x < 0)) (((x.num.natAbs * 100 : Nat) : ℚ) / x.den) = 100 * x := by
    have scaled : ((x.num.natAbs * 100 : Nat) : ℚ) / x.den = 100 * |x| := by
      rw [← natAbs_num_div_den]
      push_cast
      ring
    rw [scaled, withSign_mul, withSign_abs]
  rw [value] at signed
  exact signed

theorem hundredths_eq {k : ℤ} {x : ℚ} (nearest : NearestEven k (100 * x)) : hundredths x = k :=
  (nearestEven_hundredths x).unique nearest

theorem hundredths_mono : Monotone hundredths := by
  intro x y less
  exact (nearestEven_hundredths x).le_of_le (nearestEven_hundredths y) (by linarith)

theorem hundredths_intCast (n : ℤ) : hundredths n = 100 * n := by
  apply hundredths_eq
  have exact := nearestEven_intCast (100 * n)
  push_cast at exact
  exact exact

theorem hundredths_eq_zero_iff (x : ℚ) : hundredths x = 0 ↔ |x| ≤ 1 / 200 := by
  have close : |100 * x| = 100 * |x| := by rw [abs_mul, abs_of_pos (by norm_num)]
  have scaled : |100 * x| ≤ 1 / 2 ↔ |x| ≤ 1 / 200 := by
    rw [close]
    constructor <;> intro less <;> linarith
  rw [← scaled, ← nearestEven_zero_iff]
  constructor
  · intro zero
    rw [← zero]
    exact nearestEven_hundredths x
  · exact hundredths_eq

/-- A value as it is printed. -/
def rounded (x : ℚ) : ℚ := hundredths x / 100

theorem rounded_mono : Monotone rounded := by
  intro x y less
  have order : (hundredths x : ℚ) ≤ hundredths y := by exact_mod_cast hundredths_mono less
  exact div_le_div_of_nonneg_right order (by norm_num)

/-- Printing moves a value by half a hundredth at most. -/
theorem abs_rounded_sub_le (x : ℚ) : |rounded x - x| ≤ 1 / 200 := by
  have scaled : rounded x - x = (hundredths x - 100 * x) / 100 := by
    rw [rounded]
    ring
  rw [scaled, abs_div, abs_of_pos (by norm_num : (0 : ℚ) < 100)]
  have close := (nearestEven_hundredths x).close
  linarith

end Frond
