import Mathlib
import Frond.Proofs.Number.Equality
import Frond.Proofs.Number.Rounded

/-!
The values of doubles. A finite double lies on the grid of its value, and a sum, a difference and a
product of finite doubles is the exact one rounded, as long as that is not too large for a double.
-/

namespace Frond

open Float.Model (UnpackedFloat Format totalExponent)
open Float.Model.UnpackedFloat (Sign ExtendedMantissa)

namespace Binary64

/-- An unpacked double is finite and has a value, as it lies on the grid of that value. -/
inductive Denotes : UnpackedFloat → ℚ → Prop
  | zero (sign : Sign) : Denotes (.zero sign) 0
  | finite (sign : Sign) {m : Nat} {e : ℤ} (positive : 0 < m) (bound : m < 2 ^ 53)
      (lowest : -1074 ≤ e) (filled : e = -1074 ∨ 2 ^ 52 ≤ m) :
      Denotes (.finite sign m e positive) (sign.apply m * 2 ^ e)

theorem cast_apply (sign : Sign) (n : ℤ) : (sign.apply n : ℚ) = sign.apply 1 * n := by
  cases sign <;> simp [Sign.apply]

theorem apply_one_mul_self (sign : Sign) : (sign.apply 1 * sign.apply 1 : ℚ) = 1 := by
  cases sign <;> simp [Sign.apply]

theorem abs_apply (sign : Sign) (m : Nat) (e : ℤ) :
    |(sign.apply m * 2 ^ e : ℚ)| = m * 2 ^ e := by
  have size : |(sign.apply 1 : ℚ)| = 1 := by
    cases sign <;> simp [Sign.apply]
  rw [cast_apply, abs_mul, abs_mul, size, one_mul, abs_of_pos (two_zpow_pos e), Int.cast_natCast,
    Nat.abs_cast]

theorem apply_mul_apply_nonneg (sign : Sign) (m n : Nat) (e f : ℤ) :
    (0 : ℚ) ≤ sign.apply m * 2 ^ e * (sign.apply n * 2 ^ f) := by
  have product : (sign.apply m * 2 ^ e * (sign.apply n * 2 ^ f) : ℚ) = m * 2 ^ e * (n * 2 ^ f) := by
    calc (sign.apply m * 2 ^ e * (sign.apply n * 2 ^ f) : ℚ)
        = sign.apply 1 * sign.apply 1 * (m * 2 ^ e * (n * 2 ^ f)) := by
          rw [cast_apply sign m, cast_apply sign n]
          push_cast
          ring
      _ = m * 2 ^ e * (n * 2 ^ f) := by rw [apply_one_mul_self, one_mul]
  rw [product]
  positivity

theorem targetExponent_eq (m : Nat) (e : ℤ) :
    Format.binary64.targetExponent (totalExponent m e) = max (m.log2 + e - 52) (-1074) := by
  simp only [Format.targetExponent, totalExponent, Format.mantissaBits, Format.minExponent]
  norm_num
  omega

theorem grid_targetExponent {m : Nat} (positive : 0 < m) (e : ℤ) :
    Grid (m * 2 ^ e) (Format.binary64.targetExponent (totalExponent m e)) := by
  rw [targetExponent_eq]
  have unit := two_zpow_pos e
  have least : ((2 ^ m.log2 : Nat) : ℚ) ≤ m := by
    exact_mod_cast Nat.log2_self_le positive.ne'
  have most : (m : ℚ) < (2 ^ (m.log2 + 1) : Nat) := by exact_mod_cast Nat.lt_log2_self
  refine ⟨le_max_right _ _, ?_, ?_⟩
  · calc (m : ℚ) * 2 ^ e < (2 ^ (m.log2 + 1) : Nat) * 2 ^ e := mul_lt_mul_of_pos_right most unit
      _ = 2 ^ (e + (m.log2 + 1 : Nat)) := by
        rw [two_zpow_add_nat]
        push_cast
        rfl
      _ ≤ 2 ^ (max (m.log2 + e - 52) (-1074) + 53) := two_zpow_le (by omega)
  · rcases le_or_gt ((m.log2 : ℤ) + e - 52) (-1074) with low | high
    · exact .inl (max_eq_right low)
    · right
      rw [max_eq_left high.le]
      calc (2 : ℚ) ^ ((m.log2 : ℤ) + e - 52 + 52) = 2 ^ (e + (m.log2 : Nat)) := by
            congr 1
            omega
        _ = (2 ^ m.log2 : Nat) * 2 ^ e := by
          rw [two_zpow_add_nat]
          push_cast
          rfl
        _ ≤ m * 2 ^ e := mul_le_mul_of_nonneg_right least unit.le

open Float.Model.UnpackedFloat (shiftToTargetExponent roundWithAccuracy decreaseExponent)

theorem shiftToTargetExponent_eq {m : Nat} {e : ℤ}
    (coarser : e ≤ Format.binary64.targetExponent (totalExponent m e)) :
    shiftToTargetExponent .binary64 m e .exact =
      (ExtendedMantissa.mk m false false >>>
        (Format.binary64.targetExponent (totalExponent m e) - e).toNat,
        Format.binary64.targetExponent (totalExponent m e)) := by
  rw [shiftToTargetExponent, Float.Model.UnpackedFloat.shiftToExponent]
  refine Prod.ext rfl ?_
  dsimp only
  omega

theorem shiftToTargetExponent_of_fits {m : Nat} {e : ℤ} (lowest : -1074 ≤ e) (fits : m < 2 ^ 53) :
    shiftToTargetExponent .binary64 m e .exact = (⟨m, false, false⟩, e) := by
  have short : m.log2 ≤ 52 := by
    by_cases zero : m = 0
    · simp [zero]
    · have := (Nat.log2_lt zero).mpr fits
      omega
  have still : (Format.binary64.targetExponent (totalExponent m e) - e).toNat = 0 := by
    rw [targetExponent_eq]
    omega
  rw [shiftToTargetExponent, Float.Model.UnpackedFloat.shiftToExponent]
  simp only [still]
  simp
  rfl

/-- A mantissa that was rounded up to a power of two that does not fit is halved. -/
theorem shiftToTargetExponent_carry {e : ℤ} (lowest : -1074 ≤ e) :
    shiftToTargetExponent .binary64 (2 ^ 53) e .exact = (⟨2 ^ 52, false, false⟩, e + 1) := by
  have target : Format.binary64.targetExponent (totalExponent (2 ^ 53) e) = e + 1 := by
    rw [targetExponent_eq, Nat.log2_two_pow]
    omega
  rw [shiftToTargetExponent_eq (by omega), target]
  have once : (e + 1 - e).toNat = 1 := by omega
  rw [once]
  rfl

theorem denotes_roundWithAccuracy (sign : Sign) {m : Nat} {e : ℤ} (positive : 0 < m)
    (coarser : e ≤ Format.binary64.targetExponent (totalExponent m e)) :
    ∃ z, Rounds (sign.apply m * 2 ^ e) z ∧
      Denotes (roundWithAccuracy .binary64 sign m e .exact) z := by
  have grid := grid_targetExponent positive e
  have first := shiftToTargetExponent_eq coarser
  generalize Format.binary64.targetExponent (totalExponent m e) = t at coarser grid first
  have step := two_zpow_pos t
  have scaled : (m : ℚ) / 2 ^ (t - e).toNat = m * 2 ^ e / 2 ^ t := by
    obtain ⟨k, rfl⟩ : ∃ k : Nat, t = e + k := ⟨(t - e).toNat, by omega⟩
    have unit := two_zpow_pos e
    rw [two_zpow_add_nat, add_sub_cancel_left, Int.toNat_natCast]
    field_simp
  have near : NearestEven (ExtendedMantissa.mk m false false >>> (t - e).toNat).roundedMantissa
      (m * 2 ^ e / 2 ^ t) := by
    rw [← scaled]
    exact ((Spells.exact rfl).shiftRight _).nearest
  rw [roundWithAccuracy, first]
  dsimp only
  generalize ExtendedMantissa.roundedMantissa _ = q at near ⊢
  have rounds : Rounds (sign.apply m * 2 ^ e) (sign.apply q * 2 ^ t) := by
    refine ⟨?_, t, q, ?_, ?_, abs_apply sign q t⟩
    · exact apply_mul_apply_nonneg sign m q e t
    · rw [abs_apply]
      exact grid
    · rw [abs_apply]
      exact near
  obtain ⟨most, filled⟩ := grid.bounds_of_nearest near
  refine ⟨_, rounds, ?_⟩
  rcases most.lt_or_eq with fits | carry
  · rw [shiftToTargetExponent_of_fits grid.lowest fits]
    dsimp only
    split
    case isTrue zero =>
      have none : (sign.apply (q : Nat) * 2 ^ t : ℚ) = 0 := by
        rw [← abs_eq_zero, abs_apply, zero, Nat.cast_zero, zero_mul]
      rw [none]
      exact .zero sign
    case isFalse nonzero => exact .finite sign _ fits grid.lowest filled
  · subst carry
    rw [shiftToTargetExponent_carry grid.lowest]
    have halved : (sign.apply (2 ^ 53 : Nat) * 2 ^ t : ℚ) =
        sign.apply (2 ^ 52 : Nat) * 2 ^ (t + 1) := by
      rw [zpow_add_one₀ two_ne_zero, cast_apply sign (2 ^ 53 : Nat), cast_apply sign (2 ^ 52 : Nat)]
      push_cast
      ring
    have lowest := grid.lowest
    rw [halved]
    exact .finite sign (by norm_num) (by norm_num) (by omega) (.inr le_rfl)

variable {a b : UnpackedFloat} {x y : ℚ}

/-- The value of a double is on its own grid. -/
theorem Denotes.grid (left : Denotes a x) : ∃ (m : Nat) (e : ℤ), Grid |x| e ∧ |x| = m * 2 ^ e := by
  cases left with
  | zero sign =>
      refine ⟨0, -1074, ⟨le_rfl, ?_, .inl rfl⟩, ?_⟩
      · rw [abs_zero]
        exact two_zpow_pos _
      · simp
  | @finite sign m e positive bound lowest filled =>
      refine ⟨m, e, ?_, abs_apply sign m e⟩
      rw [abs_apply]
      exact grid_of_mantissa bound lowest filled

theorem Denotes.rounds_self (left : Denotes a x) : Rounds x x := by
  obtain ⟨m, e, grid, point⟩ := left.grid
  refine ⟨mul_self_nonneg x, e, m, grid, ?_, point⟩
  rw [point, mul_div_cancel_right₀ _ (two_zpow_pos e).ne']
  exact nearestEven_intCast m

theorem log2_shiftLeft {m : Nat} (positive : 0 < m) (k : Nat) : (m <<< k).log2 = m.log2 + k := by
  induction k with
  | zero => rfl
  | succ k ih =>
      have shifted : m <<< k ≠ 0 := by
        rw [Nat.shiftLeft_eq]
        positivity
      rw [Nat.shiftLeft_succ, Nat.log2_two_mul shifted, ih, Nat.add_assoc]

/-- A lower exponent is made up for in the mantissa. -/
theorem apply_decreaseExponent (sign : Sign) (m : Nat) (e t : ℤ) :
    (sign.apply (decreaseExponent m e t).1 * 2 ^ (decreaseExponent m e t).2 : ℚ) =
      sign.apply m * 2 ^ e := by
  simp only [decreaseExponent]
  generalize (e - t).toNat = k
  have whole : (2 : ℚ) ^ e = 2 ^ k * 2 ^ (e - k) := by
    rw [← two_zpow_add_nat, sub_add_cancel]
  rw [cast_apply sign m, cast_apply, whole, Nat.shiftLeft_eq]
  push_cast
  ring

theorem denotes_round (sign : Sign) {m : Nat} (positive : 0 < m) (e : ℤ) :
    ∃ z, Rounds (sign.apply m * 2 ^ e) z ∧
      Denotes (Float.Model.UnpackedFloat.round .binary64 sign m e) z := by
  have value := apply_decreaseExponent sign m e (Format.binary64.targetExponent (totalExponent m e))
  rw [← value, Float.Model.UnpackedFloat.round]
  apply denotes_roundWithAccuracy
  · simp only [decreaseExponent, Nat.shiftLeft_eq]
    positivity
  · simp only [targetExponent_eq, decreaseExponent, log2_shiftLeft positive]
    omega

theorem denotes_normalize (sum e : ℤ) :
    ∃ z, Rounds (sum * 2 ^ e) z ∧
      Denotes (Float.Model.UnpackedFloat.normalize .binary64 sum e .positive) z := by
  rw [Float.Model.UnpackedFloat.normalize]
  rcases lt_trichotomy sum 0 with below | rfl | above
  · rw [Int.compare_eq_lt.mpr below]
    obtain ⟨m, rfl⟩ : ∃ m : Nat, sum = -m := ⟨(-sum).toNat, by omega⟩
    have rounded := denotes_round .negative (m := m) (by omega) e
    rw [neg_neg, Int.toNat_natCast]
    exact rounded
  · rw [Int.cast_zero, zero_mul]
    exact ⟨0, (Denotes.zero .positive).rounds_self, .zero .positive⟩
  · rw [Int.compare_eq_gt.mpr above]
    obtain ⟨m, rfl⟩ : ∃ m : Nat, sum = m := ⟨sum.toNat, by omega⟩
    exact denotes_round .positive (by omega) e

theorem apply_neg (sign : Sign) (n : ℤ) : (-sign).apply n = -sign.apply n := by
  cases sign with
  | negative => exact (neg_neg n).symm
  | positive => rfl

theorem apply_lowered (sign : Sign) (m : Nat) {e t : ℤ} (lower : t ≤ e) :
    (sign.apply (decreaseExponent m e t).1 * 2 ^ t : ℚ) = sign.apply m * 2 ^ e := by
  have reached : (decreaseExponent m e t).2 = t := by
    rw [decreaseExponent]
    dsimp only
    omega
  rw [← apply_decreaseExponent sign m e t, reached]

theorem denotes_add (left : Denotes a x) (right : Denotes b y) :
    ∃ z, Rounds (x + y) z ∧ Denotes (UnpackedFloat.add .binary64 a b) z := by
  cases left with
  | zero sign =>
      rw [zero_add]
      refine ⟨y, right.rounds_self, ?_⟩
      cases right with
      | zero other =>
          rw [UnpackedFloat.add]
          split <;> exact .zero _
      | finite other positive bound lowest filled => exact .finite other positive bound lowest filled
  | @finite sign m e positive bound lowest filled =>
      cases right with
      | zero other =>
          rw [add_zero]
          have left := Denotes.finite sign positive bound lowest filled
          exact ⟨_, left.rounds_self, left⟩
      | @finite other n f positive' bound' lowest' filled' =>
          rw [← apply_lowered sign m (min_le_left e f), ← apply_lowered other n (min_le_right e f),
            ← add_mul, ← Int.cast_add]
          exact denotes_normalize _ _

theorem Denotes.neg (right : Denotes b y) : Denotes b.neg (-y) := by
  cases right with
  | zero sign =>
      rw [neg_zero]
      exact .zero (-sign)
  | @finite sign m e positive bound lowest filled =>
      rw [← neg_mul, ← Int.cast_neg, ← apply_neg]
      exact .finite (-sign) positive bound lowest filled

theorem denotes_sub (left : Denotes a x) (right : Denotes b y) :
    ∃ z, Rounds (x - y) z ∧ Denotes (UnpackedFloat.sub .binary64 a b) z := by
  cases left with
  | zero sign =>
      rw [zero_sub]
      refine ⟨-y, right.neg.rounds_self, ?_⟩
      cases right with
      | zero other =>
          rw [UnpackedFloat.sub, neg_zero]
          split <;> exact .zero _
      | finite other positive bound lowest filled =>
          exact (Denotes.finite other positive bound lowest filled).neg
  | @finite sign m e positive bound lowest filled =>
      cases right with
      | zero other =>
          rw [sub_zero]
          have left := Denotes.finite sign positive bound lowest filled
          exact ⟨_, left.rounds_self, left⟩
      | @finite other n f positive' bound' lowest' filled' =>
          rw [← apply_lowered sign m (min_le_left e f), ← apply_lowered other n (min_le_right e f),
            ← sub_mul, ← Int.cast_sub]
          exact denotes_normalize _ _

theorem apply_mul_apply (sign other : Sign) (m n : ℤ) :
    (sign * other).apply (m * n) = sign.apply m * other.apply n := by
  cases sign with
  | negative =>
      cases other with
      | negative => exact (neg_mul_neg m n).symm
      | positive => exact (neg_mul m n).symm
  | positive =>
      cases other with
      | negative => exact (mul_neg m n).symm
      | positive => rfl

theorem denotes_mul (left : Denotes a x) (right : Denotes b y) :
    ∃ z, Rounds (x * y) z ∧ Denotes (UnpackedFloat.mul .binary64 a b) z := by
  cases left with
  | zero sign =>
      rw [zero_mul]
      refine ⟨0, (Denotes.zero sign).rounds_self, ?_⟩
      cases right with
      | zero other => exact .zero _
      | finite other positive bound lowest filled => exact .zero _
  | @finite sign m e positive bound lowest filled =>
      cases right with
      | zero other =>
          rw [mul_zero]
          exact ⟨0, (Denotes.zero other).rounds_self, .zero _⟩
      | @finite other n f positive' bound' lowest' filled' =>
          have product : (sign.apply m * 2 ^ e * (other.apply n * 2 ^ f) : ℚ) =
              (sign * other).apply (m * n : Nat) * 2 ^ (e + f) := by
            rw [Nat.cast_mul, apply_mul_apply, zpow_add₀ two_ne_zero]
            push_cast
            ring
          rw [product]
          apply denotes_roundWithAccuracy _ (Nat.mul_pos positive positive')
          -- Where one mantissa is full, the product has enough digits for any exponent.
          have digits (full : 2 ^ 52 ≤ m * n) : 52 ≤ (m * n).log2 :=
            (Nat.le_log2 (Nat.mul_pos positive positive').ne').mpr full
          rw [targetExponent_eq]
          rcases filled with low | full
          · rcases filled' with low' | full'
            · omega
            · have := digits (full'.trans (Nat.le_mul_of_pos_left n positive))
              omega
          · have := digits (full.trans (Nat.le_mul_of_pos_right m positive'))
            omega

end Binary64

end Frond
