import Mathlib
import Frond.Proofs.Number.Mantissa

/-!
Values that are rounded to doubles. The doubles near a value lie on a grid of powers of two, and a
value is rounded to the nearest point of its grid. So rounding does not lead beyond a power of two,
moves a value by half a step of the grid at most, and takes a double back that was moved by less.
-/

namespace Frond

/-- The exponent of the grid on which the doubles near a value lie that is not negative. -/
structure Grid (x : ℚ) (t : ℤ) : Prop where
  lowest : -1074 ≤ t
  below : x < 2 ^ (t + 53)
  filled : t = -1074 ∨ 2 ^ (t + 52) ≤ x

/-- The first value is rounded to the second, on a grid that has no end. -/
structure Rounds (x z : ℚ) : Prop where
  sign : 0 ≤ x * z
  near : ∃ t q : ℤ, Grid |x| t ∧ NearestEven q (|x| / 2 ^ t) ∧ |z| = q * 2 ^ t

theorem two_zpow_add_nat (t : ℤ) (k : Nat) : (2 : ℚ) ^ (t + k) = 2 ^ k * 2 ^ t := by
  rw [zpow_add₀ two_ne_zero, zpow_natCast, mul_comm]

theorem lt_of_two_zpow_lt {m n : ℤ} (less : (2 : ℚ) ^ m < 2 ^ n) : m < n :=
  (zpow_lt_zpow_iff_right₀ one_lt_two).mp less

theorem two_zpow_le {m n : ℤ} (less : m ≤ n) : (2 : ℚ) ^ m ≤ 2 ^ n :=
  zpow_le_zpow_right₀ one_le_two less

theorem two_zpow_pos (n : ℤ) : (0 : ℚ) < 2 ^ n := zpow_pos two_pos n

/-- A quotient is scaled by a shift of its numerator or of its denominator. -/
theorem shiftLeft_div_shiftLeft (num den : Nat) (e : ℤ) :
    ((num <<< e.toNat : Nat) : ℚ) / (den <<< (-e).toNat : Nat) = num / den * 2 ^ e := by
  rcases Int.eq_nat_or_neg e with ⟨n, rfl | rfl⟩
  · simp [Nat.shiftLeft_eq, mul_div_right_comm]
  · simp [Nat.shiftLeft_eq, zpow_neg, div_eq_mul_inv, mul_assoc, mul_comm]

/-- A mantissa of 53 bits, all of which are used unless the grid is the finest, is on its grid. -/
theorem grid_of_mantissa {m : Nat} {e : ℤ} (bound : m < 2 ^ 53) (lowest : -1074 ≤ e)
    (filled : e = -1074 ∨ 2 ^ 52 ≤ m) : Grid (m * 2 ^ e) e := by
  have unit := two_zpow_pos e
  refine ⟨lowest, ?_, filled.imp_right fun full => ?_⟩
  · rw [show e + 53 = e + (53 : Nat) from rfl, two_zpow_add_nat]
    exact mul_lt_mul_of_pos_right (by exact_mod_cast bound) unit
  · rw [show e + 52 = e + (52 : Nat) from rfl, two_zpow_add_nat]
    exact mul_le_mul_of_nonneg_right (by exact_mod_cast full) unit.le

/-- A value that is not negative lies on one grid. -/
theorem Grid.unique {x : ℚ} {s t : ℤ} (first : Grid x s) (second : Grid x t) : s = t := by
  have less {s t : ℤ} (first : Grid x s) (second : Grid x t) : s ≤ t := by
    rcases first.filled with rfl | filled
    · exact second.lowest
    · have := lt_of_two_zpow_lt (filled.trans_lt second.below)
      omega
  exact le_antisymm (less first second) (less second first)

/-- A mantissa has 53 bits, but for a carry, and all of them unless the grid is the finest. -/
theorem Grid.bounds_of_nearest {x : ℚ} {t : ℤ} {q : Nat} (grid : Grid x t)
    (near : NearestEven q (x / 2 ^ t)) : q ≤ 2 ^ 53 ∧ (t = -1074 ∨ 2 ^ 52 ≤ q) := by
  have step := two_zpow_pos t
  constructor
  · apply Int.ofNat_le.mp
    apply near.le_of_le_intCast
    rw [div_le_iff₀ step]
    calc x ≤ 2 ^ (t + (53 : Nat)) := grid.below.le
      _ = ((2 ^ 53 : Nat) : ℤ) * 2 ^ t := by
        rw [two_zpow_add_nat]
        norm_num
  · refine grid.filled.imp_right fun full => Int.ofNat_le.mp (near.ge_of_intCast_le ?_)
    rw [le_div_iff₀ step]
    calc (((2 ^ 52 : Nat) : ℤ) : ℚ) * 2 ^ t = 2 ^ (t + (52 : Nat)) := by
          rw [two_zpow_add_nat]
          norm_num
      _ ≤ x := full

namespace Rounds

variable {x z : ℚ} {c : ℤ}

theorem unique {y : ℚ} (first : Rounds x y) (second : Rounds x z) (left : 0 ≤ y) (right : 0 ≤ z) :
    y = z := by
  obtain ⟨t, q, grid, near, written⟩ := first.near
  obtain ⟨s, r, grid', near', written'⟩ := second.near
  obtain rfl := grid.unique grid'
  obtain rfl := near.unique near'
  rw [abs_of_nonneg left] at written
  rw [abs_of_nonneg right] at written'
  exact written.trans written'.symm

/-- Rounding does not lead beyond a power of two, also from a little above it. -/
theorem abs_le_pow (rounds : Rounds x z) (large : -1000 ≤ c)
    (small : |x| ≤ 2 ^ c + 2 ^ (c - 53)) : |z| ≤ 2 ^ c := by
  obtain ⟨t, q, grid, near, written⟩ := rounds.near
  have fine : t ≤ c - 52 := by
    rcases grid.filled with rfl | filled
    · omega
    · have less : (2 : ℚ) ^ (t + 52) < 2 ^ (c + 1) := by
        have half : (2 : ℚ) ^ (c - 53) < 2 ^ c := zpow_lt_zpow_right₀ one_lt_two (by omega)
        calc (2 : ℚ) ^ (t + 52) ≤ |x| := filled
          _ ≤ 2 ^ c + 2 ^ (c - 53) := small
          _ < 2 ^ c * 2 := by linarith
          _ = 2 ^ (c + 1) := (zpow_add_one₀ two_ne_zero c).symm
      have := lt_of_two_zpow_lt less
      omega
  obtain ⟨k, rfl⟩ : ∃ k : Nat, c = t + k := ⟨(c - t).toNat, by omega⟩
  have bound : q ≤ 2 ^ k := by
    have step := two_zpow_pos t
    by_cases next : k = 52
    · apply near.le_of_le_half
      · rw [next]
        decide
      · rw [div_le_iff₀ step]
        calc |x| ≤ 2 ^ (t + k) + 2 ^ (t + k - 53) := small
          _ = 2 ^ k * 2 ^ t + 2 ^ (-1 : ℤ) * 2 ^ t := by
            rw [two_zpow_add_nat, ← zpow_add₀ two_ne_zero]
            congr 2
            omega
          _ = ((2 ^ k : ℤ) + 1 / 2) * 2 ^ t := by
            push_cast
            ring
    · apply near.le_of_le_intCast
      rw [div_le_iff₀ step]
      calc |x| ≤ 2 ^ (t + 53) := grid.below.le
        _ ≤ 2 ^ (t + k) := two_zpow_le (by omega)
        _ = (2 ^ k : ℤ) * 2 ^ t := by
          push_cast
          exact two_zpow_add_nat t k
  calc |z| = q * 2 ^ t := written
    _ ≤ 2 ^ k * 2 ^ t := mul_le_mul_of_nonneg_right (by exact_mod_cast bound) (two_zpow_pos t).le
    _ = 2 ^ (t + k) := (two_zpow_add_nat t k).symm

theorem abs_le_of_le (rounds : Rounds x z) (large : -1000 ≤ c) (small : |x| ≤ 2 ^ c) :
    |z| ≤ 2 ^ c :=
  rounds.abs_le_pow large (small.trans (le_add_of_nonneg_right (two_zpow_pos _).le))

theorem lt_of_le (rounds : Rounds x z) (large : -1000 ≤ c) (fits : c < 1024)
    (small : |x| ≤ 2 ^ c) : |z| < 2 ^ (1024 : ℤ) :=
  (rounds.abs_le_of_le large small).trans_lt (zpow_lt_zpow_right₀ one_lt_two fits)

theorem le_of_pow_le (rounds : Rounds x z) (large : 2 ^ (1024 : ℤ) ≤ |x|) :
    2 ^ (1024 : ℤ) ≤ |z| := by
  obtain ⟨t, q, grid, near, written⟩ := rounds.near
  have high : (1024 : ℤ) < t + 53 := lt_of_two_zpow_lt (large.trans_lt grid.below)
  have filled := grid.filled.resolve_left (by omega)
  have least : 2 ^ 52 ≤ q := by
    apply near.ge_of_intCast_le
    rw [le_div_iff₀ (two_zpow_pos t)]
    calc ((2 ^ 52 : ℤ) : ℚ) * 2 ^ t = 2 ^ (t + 52) := by
          push_cast
          exact (two_zpow_add_nat t 52).symm
      _ ≤ |x| := filled
  rw [written]
  calc (2 : ℚ) ^ (1024 : ℤ) ≤ 2 ^ (t + 52) := two_zpow_le (by omega)
    _ = 2 ^ 52 * 2 ^ t := two_zpow_add_nat t 52
    _ ≤ q * 2 ^ t := mul_le_mul_of_nonneg_right (by exact_mod_cast least) (two_zpow_pos t).le

theorem eq_zero (rounds : Rounds 0 z) : z = 0 := by
  obtain ⟨t, q, _, near, written⟩ := rounds.near
  have none : q = 0 := by
    apply near.eq_of_close
    norm_num
  rw [none, Int.cast_zero, zero_mul, abs_eq_zero] at written
  exact written

theorem abs_sub_eq (rounds : Rounds x z) : |z - x| = abs (|z| - |x|) := by
  rw [← sq_eq_sq_iff_abs_eq_abs]
  calc (z - x) ^ 2 = z ^ 2 - 2 * (x * z) + x ^ 2 := by ring
    _ = |z| ^ 2 - 2 * |x * z| + |x| ^ 2 := by rw [abs_of_nonneg rounds.sign, sq_abs, sq_abs]
    _ = (|z| - |x|) ^ 2 := by
      rw [abs_mul]
      ring

/-- Rounding moves a value by half a step of its grid at most. -/
theorem close (rounds : Rounds x z) (large : -1000 ≤ c) (small : |x| ≤ 2 ^ (c + 1)) :
    |z - x| ≤ 2 ^ (c - 53) := by
  obtain ⟨t, q, grid, near, written⟩ := rounds.near
  have step := two_zpow_pos t
  have moved : |z - x| = |(q : ℚ) - |x| / 2 ^ t| * 2 ^ t := by
    calc |z - x| = abs (|z| - |x|) := rounds.abs_sub_eq
      _ = |((q : ℚ) - |x| / 2 ^ t) * 2 ^ t| := by
        rw [written, sub_mul, div_mul_cancel₀ _ step.ne']
      _ = |(q : ℚ) - |x| / 2 ^ t| * 2 ^ t := by rw [abs_mul, abs_of_pos step]
  rw [moved]
  by_cases fine : t ≤ c - 52
  · calc |(q : ℚ) - |x| / 2 ^ t| * 2 ^ t ≤ 1 / 2 * 2 ^ t :=
          mul_le_mul_of_nonneg_right near.close step.le
      _ = 2 ^ (t - 1) := by
        rw [zpow_sub_one₀ two_ne_zero]
        ring
      _ ≤ 2 ^ (c - 53) := two_zpow_le (by omega)
  · -- A power of two is the only value as large as that with so coarse a grid.
    have filled := grid.filled.resolve_left (by omega)
    have last : t = c - 51 := by
      have := (zpow_le_zpow_iff_right₀ one_lt_two).mp (filled.trans small)
      omega
    have power : |x| / 2 ^ t = (2 ^ 52 : ℤ) := by
      have same : |x| = 2 ^ (t + (52 : Nat)) := by
        apply le_antisymm _ filled
        calc |x| ≤ 2 ^ (c + 1) := small
          _ = 2 ^ (t + (52 : Nat)) := by
            congr 1
            push_cast
            omega
      rw [same, two_zpow_add_nat, mul_div_cancel_right₀ _ step.ne']
      norm_num
    rw [power] at near ⊢
    have exact : q = 2 ^ 52 := near.eq_of_close (by norm_num)
    rw [exact, sub_self, abs_zero, zero_mul]
    exact (two_zpow_pos _).le

end Rounds

section

variable {v w : ℚ} {m : Nat} {q e t : ℤ} (grid : Grid v e) (double : v = m * 2 ^ e)
  (full : 2 ^ (e + 52) ≤ v) (close : |w - v| ≤ 2 ^ e / 8) (fine : Grid w t)

include grid double full close fine

/-- Just below a power of two the grid is finer by one, and nowhere else near a double. -/
theorem exponent_of_close : e - 1 ≤ t ∧ t ≤ e := by
  have unit := two_zpow_pos e
  obtain ⟨down, up⟩ := abs_le.mp close
  have mantissa : (m : ℚ) + 1 ≤ 2 ^ 53 := by
    have below := grid.below
    rw [double, show e + 53 = e + (53 : Nat) from rfl, two_zpow_add_nat] at below
    exact_mod_cast lt_of_mul_lt_mul_right below unit.le
  have upper : w < 2 ^ (e + 53) := by
    calc w ≤ m * 2 ^ e + 2 ^ e / 8 := by linarith
      _ < (m + 1) * 2 ^ e := by linarith
      _ ≤ 2 ^ 53 * 2 ^ e := mul_le_mul_of_nonneg_right mantissa unit.le
      _ = 2 ^ (e + 53) := (two_zpow_add_nat e 53).symm
  have lower : (2 : ℚ) ^ (e + 51) ≤ w := by
    have power : (2 : ℚ) ^ (e + 52) = 2 ^ 52 * 2 ^ e := two_zpow_add_nat e 52
    calc (2 : ℚ) ^ (e + 51) = 2 ^ 51 * 2 ^ e := two_zpow_add_nat e 51
      _ ≤ w := by linarith
  constructor
  · have := lt_of_two_zpow_lt (lower.trans_lt fine.below)
    omega
  · rcases fine.filled with rfl | filled
    · exact grid.lowest
    · have := lt_of_two_zpow_lt (filled.trans_lt upper)
      omega

theorem point_of_close (near : NearestEven q (w / 2 ^ t)) : q * 2 ^ t = v := by
  obtain ⟨finer, coarser⟩ := exponent_of_close grid double full close fine
  obtain ⟨k, rfl⟩ : ∃ k : Nat, e = t + k := ⟨(e - t).toNat, by omega⟩
  have step := two_zpow_pos t
  have point : v = (m * 2 ^ k : ℤ) * 2 ^ t := by
    rw [double, two_zpow_add_nat]
    push_cast
    ring
  have shifted : w / 2 ^ t - (m * 2 ^ k : ℤ) = (w - v) / 2 ^ t := by
    rw [sub_div, point, mul_div_cancel_right₀ _ step.ne']
  have narrow : (2 : ℚ) ^ k ≤ 2 := by
    calc (2 : ℚ) ^ k ≤ 2 ^ 1 := pow_le_pow_right₀ one_le_two (by omega)
      _ = 2 := pow_one 2
  have found : q = m * 2 ^ k := by
    apply near.eq_of_close
    calc abs (w / 2 ^ t - (m * 2 ^ k : ℤ)) = |w - v| / 2 ^ t := by
          rw [shifted, abs_div, abs_of_pos step]
      _ ≤ 2 ^ k * 2 ^ t / 8 / 2 ^ t := by
        rw [← two_zpow_add_nat]
        exact div_le_div_of_nonneg_right close step.le
      _ = 2 ^ k / 8 := by field_simp
      _ < 1 / 2 := by linarith
  rw [found, point]

end

/-- A double is found again from a value that is far less than half a step of the grid away. -/
theorem Rounds.eq_of_close {y d z : ℚ} {c : ℤ} (rounds : Rounds (y + d) z) {m : Nat} {e : ℤ}
    (grid : Grid |y| e) (double : |y| = m * 2 ^ e) (large : 0 ≤ c) (far : 2 ^ c ≤ |y|)
    (small : |d| ≤ 2 ^ (c - 55)) : z = y := by
  obtain ⟨t, q, fine, near, written⟩ := rounds.near
  have high : c < e + 53 := lt_of_two_zpow_lt (far.trans_lt grid.below)
  have full : (2 : ℚ) ^ (e + 52) ≤ |y| := grid.filled.resolve_left (by omega)
  have close : abs (|y + d| - |y|) ≤ 2 ^ e / 8 := by
    calc abs (|y + d| - |y|) ≤ |y + d - y| := abs_abs_sub_abs_le _ _
      _ = |d| := by ring_nf
      _ ≤ 2 ^ (e - 3) := small.trans (two_zpow_le (by omega))
      _ = 2 ^ e / 8 := by
        rw [zpow_sub₀ two_ne_zero]
        norm_num
  have size : |z| = |y| := written.trans (point_of_close grid double full close fine near)
  rcases abs_eq_abs.mp size with same | opposite
  · exact same
  · -- The value lies on the same side of zero as the double.
    have apart : |d| < |y| := by
      calc |d| ≤ 2 ^ (c - 55) := small
        _ < 2 ^ c := zpow_lt_zpow_right₀ one_lt_two (by omega)
        _ ≤ |y| := far
    have inner : |d * y| < y * y := by
      rw [abs_mul, ← abs_mul_abs_self y]
      exact mul_lt_mul_of_pos_right apart ((abs_nonneg d).trans_lt apart)
    have sign := rounds.sign
    rw [opposite] at sign
    have := neg_abs_le (d * y)
    linarith

end Frond
