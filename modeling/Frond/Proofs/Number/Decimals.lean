import Mathlib
import Frond.Number.Reading
import Frond.Proofs.Number.Quotients

/-!
The double nearest to a decimal number. Where the count of digits tells that it is infinite or zero,
no power of ten is built, and the answer is the same.
-/

namespace Frond

open Binary64 (RoundsTo ofFloat)

namespace Decimal

/-- The powers of ten between which a number lies that has so many digits. -/
theorem pow_length_bounds {m : Nat} (top : 0 < m) (e : ℤ) :
    (10 : ℚ) ^ (e + (Nat.toDigits 10 m).length - 1) ≤ m * 10 ^ e ∧
      (m * 10 ^ e : ℚ) < 10 ^ (e + (Nat.toDigits 10 m).length) := by
  have filled : 0 < (Nat.toDigits 10 m).length := Nat.length_toDigits_pos
  generalize length : (Nat.toDigits 10 m).length = k at filled
  obtain ⟨k, rfl⟩ : ∃ j, k = j + 1 := ⟨k - 1, by omega⟩
  have unit : (0 : ℚ) < 10 ^ e := zpow_pos (by norm_num) e
  have power (j : Nat) : (10 : ℚ) ^ (e + j) = 10 ^ j * 10 ^ e := by
    rw [zpow_add₀ (by norm_num), zpow_natCast, mul_comm]
  have most : m < 10 ^ (k + 1) :=
    (Nat.length_toDigits_le_iff (by decide) (Nat.succ_pos k)).mp length.le
  have least : 10 ^ k ≤ m := by
    by_contra less
    have less := not_le.mp less
    rcases Nat.eq_zero_or_pos k with rfl | more
    · omega
    · have := (Nat.length_toDigits_le_iff (by decide) more).mpr less
      omega
  rw [show e + ((k + 1 : Nat) : ℤ) - 1 = e + k by push_cast; ring, power, power]
  exact ⟨mul_le_mul_of_nonneg_right (by exact_mod_cast least) unit.le,
    mul_lt_mul_of_pos_right (by exact_mod_cast most) unit⟩

section

variable {x : ℚ} {value : Binary64} (negative : Bool)

/-- A value that is at most half the least double is rounded to zero. -/
theorem roundsTo_zero (nonneg : 0 ≤ x) (small : x ≤ 2 ^ (-1075 : ℤ)) :
    RoundsTo negative x (.finite negative 0 (-1074)) := by
  have half : (2 : ℚ) ^ (-1075 : ℤ) = 1 / 2 * 2 ^ (-1074 : ℤ) := by
    rw [show (-1075 : ℤ) = -1074 - 1 by norm_num, zpow_sub_one₀ two_ne_zero, mul_comm, one_div]
  have grid : Grid x (-1074) :=
    ⟨le_rfl, small.trans_lt (zpow_lt_zpow_right₀ one_lt_two (by norm_num)), .inl rfl⟩
  have near : NearestEven (0 : Nat) (x / 2 ^ (-1074 : ℤ)) := by
    apply (nearestEven_zero_iff _).mpr
    rw [abs_of_nonneg (div_nonneg nonneg (two_zpow_pos _).le), div_le_iff₀ (two_zpow_pos _), ← half]
    exact small
  exact .finite (Binary64.rounds_of_nearest nonneg grid near) (by simp)

/-- A value that is beyond the doubles is not rounded to a finite one. -/
theorem eq_infinite_of_large (large : 2 ^ (1024 : ℤ) ≤ x) (rounds : RoundsTo negative x value) :
    value = .infinite negative := by
  cases rounds with
  | infinite => rfl
  | @finite m e rounds small =>
      have far := rounds.le_of_pow_le (large.trans (le_abs_self x))
      rw [abs_of_nonneg (mul_nonneg m.cast_nonneg (two_zpow_pos e).le)] at far
      exact absurd small (not_lt.mpr far)

end

theorem two_pow_1024_le : (2 : ℚ) ^ (1024 : ℤ) ≤ 10 ^ (310 : ℤ) := by
  have whole : (2 : Nat) ^ 1024 ≤ 10 ^ 310 := by decide +kernel
  exact_mod_cast whole

theorem ten_pow_331_le : (10 : ℚ) ^ (-331 : ℤ) ≤ 2 ^ (-1075 : ℤ) := by
  have whole : (2 : Nat) ^ 1075 ≤ 10 ^ 331 := by decide +kernel
  rw [zpow_neg, zpow_neg]
  exact inv_anti₀ (two_zpow_pos _) (by exact_mod_cast whole)

/-- What is read is the double nearest to the value of the numeral. -/
theorem roundsTo_toFloat (negative : Bool) (m : Nat) (e : ℤ) :
    RoundsTo negative (m * 10 ^ e) (ofFloat (toFloat negative m e)) := by
  have zero : ofFloat (Binary64.nearest negative 0 1) = .finite negative 0 (-1074) := by
    rw [Binary64.nearest, Binary64.ofFloat_ofBits_of_le negative (Binary64.nearestBits_le 0 1),
      Binary64.ofBits_nearestBits_zero]
  have unit : (0 : ℚ) < 10 ^ e := zpow_pos (by norm_num) e
  have nonneg : (0 : ℚ) ≤ m * 10 ^ e := mul_nonneg m.cast_nonneg unit.le
  have bottom : 0 < Nat.pow 10 (-e).toNat := Nat.pow_pos (by decide)
  have nearest := Binary64.roundsTo_nearest negative (m * Nat.pow 10 e.toNat) bottom
  have quotient : ((m * Nat.pow 10 e.toNat : Nat) : ℚ) / (Nat.pow 10 (-e).toNat : Nat) =
      m * 10 ^ e := by
    rcases Int.eq_nat_or_neg e with ⟨n, rfl | rfl⟩
    · simp
    · simp [zpow_neg, div_eq_mul_inv]
  rw [quotient] at nearest
  rw [toFloat]
  split
  case isTrue tiny =>
    rw [zero]
    apply roundsTo_zero negative nonneg
    rcases Nat.eq_zero_or_pos m with rfl | top
    · rw [Nat.cast_zero, zero_mul]
      exact (two_zpow_pos _).le
    · calc (m * 10 ^ e : ℚ) ≤ 10 ^ (e + (Nat.toDigits 10 m).length) :=
            (pow_length_bounds top e).2.le
        _ ≤ 10 ^ (-331 : ℤ) := zpow_le_zpow_right₀ (by norm_num) (by omega)
        _ ≤ 2 ^ (-1075 : ℤ) := ten_pow_331_le
  case isFalse some =>
    split
    case isTrue huge =>
      have large : 2 ^ (1024 : ℤ) ≤ (m * 10 ^ e : ℚ) :=
        calc (2 : ℚ) ^ (1024 : ℤ) ≤ 10 ^ (310 : ℤ) := two_pow_1024_le
          _ ≤ 10 ^ (e + (Nat.toDigits 10 m).length - 1) :=
            zpow_le_zpow_right₀ (by norm_num) (by omega)
          _ ≤ m * 10 ^ e := (pow_length_bounds (by omega) e).1
      rw [Binary64.ofFloat_infinity, ← eq_infinite_of_large negative large nearest]
      exact nearest
    case isFalse => exact nearest

end Decimal

end Frond
