import Mathlib
import Frond.Proofs.Number.Packing

/-!
The double nearest to a quotient. Its word is put together from the quotient rounded on its grid;
where the mantissa is rounded up to a power of two the exponent takes the carry, and beyond the
largest double the word is that of infinity. There is one such double.
-/

namespace Frond

namespace Binary64

/-- The double that a value without a sign is rounded to, with a sign of its own. Where the value
is rounded to one that is too large for a double it is infinite. -/
inductive RoundsTo (negative : Bool) (x : ℚ) : Binary64 → Prop
  | finite {m : Nat} {e : ℤ} (rounds : Rounds x (m * 2 ^ e))
      (small : (m * 2 ^ e : ℚ) < 2 ^ (1024 : ℤ)) :
      RoundsTo negative x (.finite negative m e)
  | infinite {z : ℚ} (rounds : Rounds x z) (large : 2 ^ (1024 : ℤ) ≤ z) :
      RoundsTo negative x (.infinite negative)

section

variable {num den : Nat} (top : 0 < num) (bottom : 0 < den)

include top bottom

theorem binaryExponent_bounds :
    (2 : ℚ) ^ binaryExponent num den ≤ num / den ∧
      (num / den : ℚ) < 2 ^ (binaryExponent num den + 1) := by
  have unit : (0 : ℚ) < den := by exact_mod_cast bottom
  have least : ((2 ^ num.log2 : Nat) : ℚ) ≤ num := by exact_mod_cast Nat.log2_self_le top.ne'
  have most : (num : ℚ) < (2 ^ (num.log2 + 1) : Nat) := by exact_mod_cast Nat.lt_log2_self
  have least' : ((2 ^ den.log2 : Nat) : ℚ) ≤ den := by exact_mod_cast Nat.log2_self_le bottom.ne'
  have most' : (den : ℚ) < (2 ^ (den.log2 + 1) : Nat) := by exact_mod_cast Nat.lt_log2_self
  generalize guessed : (num.log2 : ℤ) - den.log2 = guess
  have above : (num / den : ℚ) < 2 ^ (guess + 1) := by
    rw [div_lt_iff₀ unit]
    calc (num : ℚ) < (2 ^ (num.log2 + 1) : Nat) := most
      _ = 2 ^ (guess + 1 + (den.log2 : Nat)) := by
        rw [Nat.cast_pow, ← zpow_natCast, ← guessed]
        congr 1
        push_cast
        ring
      _ = 2 ^ (guess + 1) * (2 ^ den.log2 : Nat) := by
        rw [two_zpow_add_nat, mul_comm, Nat.cast_pow, Nat.cast_ofNat]
      _ ≤ 2 ^ (guess + 1) * den := mul_le_mul_of_nonneg_left least' (two_zpow_pos _).le
  have below : (2 : ℚ) ^ (guess - 1) ≤ num / den := by
    rw [le_div_iff₀ unit]
    calc (2 : ℚ) ^ (guess - 1) * den ≤ 2 ^ (guess - 1) * (2 ^ (den.log2 + 1) : Nat) :=
          mul_le_mul_of_nonneg_left most'.le (two_zpow_pos _).le
      _ = 2 ^ (guess - 1 + (den.log2 + 1 : Nat)) := by
        rw [two_zpow_add_nat, mul_comm, Nat.cast_pow, Nat.cast_ofNat]
      _ = (2 ^ num.log2 : Nat) := by
        rw [Nat.cast_pow, ← zpow_natCast, ← guessed]
        congr 1
        push_cast
        ring
      _ ≤ num := least
  have compared : num <<< (-guess).toNat < den <<< guess.toNat ↔ (num / den : ℚ) < 2 ^ guess := by
    have scaled := shiftLeft_div_shiftLeft num den (-guess)
    rw [neg_neg, zpow_neg, ← div_eq_mul_inv] at scaled
    have shifted : (0 : ℚ) < (den <<< guess.toNat : Nat) := by
      rw [Nat.shiftLeft_eq]
      positivity
    rw [← div_lt_one (two_zpow_pos guess), ← scaled, div_lt_one shifted, Nat.cast_lt]
  simp only [binaryExponent, guessed]
  split
  case isTrue less =>
    rw [sub_add_cancel]
    exact ⟨below, compared.mp less⟩
  case isFalse less => exact ⟨not_lt.mp (compared.not.mp less), above⟩

end

theorem ofBits_infinityWord (negative : Bool) :
    ofBits (infinityWord + if negative then signBit else 0) = infinite negative := by
  cases negative <;> decide

theorem rounds_zero : Rounds 0 0 := (Denotes.zero .positive).rounds_self

section

variable {x : ℚ} {t : ℤ} {m : Nat} (nonneg : 0 ≤ x) (grid : Grid x t)
  (near : NearestEven m (x / 2 ^ t))

include nonneg grid near

theorem rounds_of_nearest : Rounds x (m * 2 ^ t) := by
  have positive : (0 : ℚ) ≤ m * 2 ^ t := mul_nonneg m.cast_nonneg (two_zpow_pos t).le
  refine ⟨mul_nonneg nonneg positive, t, m, ?_, ?_, ?_⟩
  · rwa [abs_of_nonneg nonneg]
  · rwa [abs_of_nonneg nonneg]
  · rw [abs_of_nonneg positive, Int.cast_natCast]

/-- The word of a rounded value. A mantissa without its leading bit leaves the exponent zero; one
that was rounded up to a power of two makes the exponent greater by one. -/
theorem roundsTo_word (negative : Bool) :
    RoundsTo negative x (ofBits (min ((t + 1074).toNat <<< fractionBits + m) infinityWord +
      if negative then signBit else 0)) := by
  have rounds := rounds_of_nearest nonneg grid near
  obtain ⟨most, filled⟩ := grid.bounds_of_nearest near
  have lowest := grid.lowest
  obtain ⟨k, rfl⟩ : ∃ k : Nat, t = k - 1074 := ⟨(t + 1074).toNat, by omega⟩
  rw [sub_add_cancel, Int.toNat_natCast]
  have word (field : Nat) : field <<< fractionBits = field * 2 ^ 52 := Nat.shiftLeft_eq field 52
  have last : infinityWord = 2047 * 2 ^ 52 := rfl
  have leading : leadingBit = 2 ^ 52 := rfl
  have small {n : Nat} {e : ℤ} (fits : n < 2 ^ 53) (low : e ≤ 971) :
      (n * 2 ^ e : ℚ) < 2 ^ (1024 : ℤ) := by
    have less : (n : ℚ) < 2 ^ 53 := by exact_mod_cast fits
    calc (n * 2 ^ e : ℚ) < 2 ^ 53 * 2 ^ e := mul_lt_mul_of_pos_right less (two_zpow_pos e)
      _ = 2 ^ (e + (53 : Nat)) := (two_zpow_add_nat e 53).symm
      _ ≤ 2 ^ (1024 : ℤ) := two_zpow_le (by omega)
  by_cases beyond : infinityWord ≤ k <<< fractionBits + m
  · rw [min_eq_right beyond, ofBits_infinityWord negative]
    rw [word, last] at beyond
    apply RoundsTo.infinite rounds
    obtain ⟨j, full, high⟩ : ∃ j : Nat, 2 ^ j ≤ m ∧ 1024 ≤ (k : ℤ) - 1074 + j := by
      by_cases carry : m = 2 ^ 53
      · exact ⟨53, carry.ge, by omega⟩
      · exact ⟨52, filled.resolve_left (by omega), by omega⟩
    have least : (2 : ℚ) ^ j ≤ m := by exact_mod_cast full
    calc (2 : ℚ) ^ (1024 : ℤ) ≤ 2 ^ ((k : ℤ) - 1074 + j) := two_zpow_le high
      _ = 2 ^ j * 2 ^ ((k : ℤ) - 1074) := two_zpow_add_nat _ _
      _ ≤ m * 2 ^ ((k : ℤ) - 1074) := mul_le_mul_of_nonneg_right least (two_zpow_pos _).le
  rw [min_eq_left (not_le.mp beyond).le]
  rw [word, last] at beyond
  rcases most.lt_or_eq with fits | rfl
  · by_cases full : 2 ^ 52 ≤ m
    · have split : k <<< fractionBits + m = (k + 1) <<< fractionBits + (m - leadingBit) := by
        rw [word, word, leading]
        omega
      have exponent : ((k + 1 : Nat) : ℤ) - 1075 = k - 1074 := by omega
      rw [split, ofBits_word negative (by omega) (by omega), ofFields, if_neg (by omega),
        if_neg (Nat.succ_ne_zero k), leading, Nat.add_sub_cancel' full, exponent]
      exact .finite rounds (small fits (by omega))
    · obtain rfl : k = 0 := by
        have := filled.resolve_right full
        omega
      rw [ofBits_word negative (by omega) (by omega), ofFields, if_neg (by omega), if_pos rfl]
      exact .finite rounds (small fits (by omega))
  · have split : k <<< fractionBits + 2 ^ 53 = (k + 2) <<< fractionBits + 0 := by
      rw [word, word]
      omega
    have exponent : ((k + 2 : Nat) : ℤ) - 1075 = k - 1074 + 1 := by omega
    have halved : ((2 ^ 53 : Nat) : ℚ) * 2 ^ ((k : ℤ) - 1074) =
        (2 ^ 52 : Nat) * 2 ^ ((k : ℤ) - 1074 + 1) := by
      rw [zpow_add_one₀ two_ne_zero]
      push_cast
      ring
    rw [halved] at rounds
    rw [split, ofBits_word negative (by omega) (by decide), ofFields, if_neg (by omega),
      if_neg (Nat.succ_ne_zero _), Nat.add_zero, leading, exponent]
    exact .finite rounds (small (by norm_num) (by omega))

end

theorem ofBits_nearestBits_zero (negative : Bool) (den : Nat) :
    ofBits (nearestBits 0 den + if negative then signBit else 0) =
      finite negative 0 (-1074) := by
  rw [nearestBits, if_pos rfl]
  cases negative <;> decide

theorem roundsTo_nearestBits (negative : Bool) (num : Nat) {den : Nat} (bottom : 0 < den) :
    RoundsTo negative (num / den)
      (ofBits (nearestBits num den + if negative then signBit else 0)) := by
  by_cases none : num = 0
  · subst none
    rw [ofBits_nearestBits_zero]
    apply RoundsTo.finite
    · simpa using rounds_zero
    · simp
  have top : 0 < num := Nat.pos_of_ne_zero none
  have nonneg : (0 : ℚ) ≤ num / den := by positivity
  obtain ⟨least, most⟩ := binaryExponent_bounds top bottom
  rw [nearestBits, if_neg none]
  dsimp only
  generalize spread : max (binaryExponent num den - fractionBits) (-1074) = t
  have places : (fractionBits : ℤ) = 52 := rfl
  have grid : Grid (num / den) t := by
    refine ⟨by omega, most.trans_le (two_zpow_le (by omega)), ?_⟩
    by_cases lowest : t = -1074
    · exact .inl lowest
    · exact .inr ((two_zpow_le (by omega)).trans least)
  have near : NearestEven (roundHalfEven (num <<< (-t).toNat) (den <<< t.toNat) : ℕ)
      (num / den / 2 ^ t) := by
    have scaled := shiftLeft_div_shiftLeft num den (-t)
    rw [neg_neg, zpow_neg, ← div_eq_mul_inv] at scaled
    rw [← scaled]
    apply nearestEven_roundHalfEven
    rw [Nat.shiftLeft_eq]
    positivity
  exact roundsTo_word nonneg grid near negative

theorem ofFloat_ofBits_of_le (negative : Bool) {word : Nat} (bounded : word ≤ infinityWord) :
    ofFloat (Float.ofBits (UInt64.ofNat (word + if negative then signBit else 0))) =
      ofBits (word + if negative then signBit else 0) := by
  have last : infinityWord = 2047 * 2 ^ 52 := rfl
  have sign : signBit = 2 ^ 63 := rfl
  have short : (word + if negative then signBit else 0) < UInt64.size := by
    rw [sign, UInt64.size]
    split <;> omega
  rw [ofFloat_ofBits, UInt64.toNat_ofNat_of_lt' short]

theorem nearestBits_le (num den : Nat) : nearestBits num den ≤ infinityWord := by
  rw [nearestBits]
  split
  · exact Nat.zero_le _
  · exact min_le_right _ _

theorem roundsTo_nearest (negative : Bool) (num : Nat) {den : Nat} (bottom : 0 < den) :
    RoundsTo negative (num / den) (ofFloat (nearest negative num den)) := by
  rw [nearest, ofFloat_ofBits_of_le negative (nearestBits_le num den)]
  exact roundsTo_nearestBits negative num bottom

theorem ofFloat_infinity (negative : Bool) : ofFloat (infinity negative) = infinite negative := by
  rw [infinity, ofFloat_ofBits_of_le negative le_rfl, ofBits_infinityWord]

theorem ofFloat_notANumber : ofFloat notANumber = nan := by
  rw [notANumber, ofFloat_ofBits]
  decide

/-- A value is rounded to one double. -/
theorem RoundsTo.unique {negative : Bool} {x : ℚ} {a b : Float}
    (first : RoundsTo negative x (ofFloat a)) (second : RoundsTo negative x (ofFloat b)) :
    a = b := by
  apply ofFloat_injective
  have above {z : ℚ} (large : 2 ^ (1024 : ℤ) ≤ z) : 0 ≤ z := (two_zpow_pos _).le.trans large
  have nonneg (m : Nat) (e : ℤ) : (0 : ℚ) ≤ m * 2 ^ e :=
    mul_nonneg m.cast_nonneg (two_zpow_pos e).le
  generalize left : ofFloat a = p at first ⊢
  generalize right : ofFloat b = q at second ⊢
  cases first with
  | @finite m e rounds small =>
      cases second with
      | @finite n f rounds' small' =>
          have value := rounds.unique rounds' (nonneg m e) (nonneg n f)
          have grid := grid_of_finite left
          rw [value] at grid
          obtain rfl := grid.unique (grid_of_finite right)
          have mantissa := mul_right_cancel₀ (two_zpow_pos e).ne' value
          rw [Nat.cast_injective mantissa]
      | infinite rounds' large =>
          have value := rounds.unique rounds' (nonneg m e) (above large)
          exact absurd (value ▸ small) (not_lt.mpr large)
  | infinite rounds large =>
      cases second with
      | @finite n f rounds' small =>
          have value := rounds'.unique rounds (nonneg n f) (above large)
          exact absurd (value ▸ small) (not_lt.mpr large)
      | infinite rounds' large' => rfl

end Binary64

end Frond
