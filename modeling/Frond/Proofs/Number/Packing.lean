import Mathlib
import Frond.Proofs.Number.Doubles

/-!
Doubles in words of 64 bits. A finite double that is put into a word is read from it again, and what
is read from a word and finite has a value.
-/

namespace Frond.Binary64

open Float.Model (UnpackedFloat Format)
open Float.Model.UnpackedFloat (Sign packComponents unpackSign unpackMantissa unpackExponent
  unpackMantissa_packComponents unpackExponent_packComponents)

theorem sign_packComponents (sign : Sign) (exponent : BitVec 11) (mantissa : BitVec 52) :
    Sign.ofBitVec (unpackSign (packComponents .binary64 sign exponent mantissa)) = sign := by
  simp only [unpackSign, packComponents, BitVec.extractLsb]
  rw [BitVec.extractLsb'_append_eq_of_le (by omega), BitVec.extractLsb'_append_eq_of_le (by omega)]
  cases sign <;> rfl

theorem toNat_leading (mantissa : BitVec 52) :
    (1#1 ++ mantissa).toNat = 2 ^ 52 + mantissa.toNat := by
  rw [BitVec.toNat_append, ← Nat.shiftLeft_add_eq_or_of_lt mantissa.isLt]
  rfl

theorem toNat_ofNat_of_lt {n w : Nat} (small : n < 2 ^ w) : (BitVec.ofNat w n).toNat = n := by
  rw [BitVec.toNat_ofNat, Nat.mod_eq_of_lt small]

theorem unpack_pack_normal (sign : Sign) {m : Nat} {e : ℤ} (positive : 0 < m) (bound : m < 2 ^ 53)
    (full : 2 ^ 52 ≤ m) (lowest : -1074 ≤ e) (highest : e ≤ 971) :
    UnpackedFloat.unpack .binary64 (UnpackedFloat.pack .binary64 (.finite sign m e positive)) =
      .finite sign m e positive := by
  obtain ⟨field, rfl⟩ : ∃ field : Nat, e = field - 1075 := ⟨(e + 1075).toNat, by omega⟩
  have digits : m.log2 = 52 := (Nat.log2_eq_iff positive.ne').mpr ⟨full, bound⟩
  have biased : ((field : ℤ) - 1075 + 1023 + 52).toNat = field := by omega
  have packed : UnpackedFloat.pack .binary64 (.finite sign m (field - 1075) positive) =
      packComponents .binary64 sign (BitVec.ofNat 11 field) (BitVec.ofNat 52 m) := by
    rw [UnpackedFloat.pack]
    simp only [Format.exponentBias, Format.mantissaBits, digits]
    norm_num
    rw [biased, if_neg (by omega)]
  have exponent : (BitVec.ofNat 11 field).toNat = field := toNat_ofNat_of_lt (by omega)
  have bounded : BitVec.ofNat 11 field ≠ -1#11 := by
    intro same
    have word := congrArg BitVec.toNat same
    rw [exponent] at word
    change field = 2047 at word
    omega
  have normal : BitVec.ofNat 11 field ≠ 0#11 := by
    intro same
    have word := congrArg BitVec.toNat same
    rw [exponent] at word
    change field = 0 at word
    omega
  have mantissa : (1#1 ++ BitVec.ofNat 52 m).toNat = m := by
    rw [toNat_leading, BitVec.toNat_ofNat]
    omega
  rw [packed, UnpackedFloat.unpack]
  simp only [unpackMantissa_packComponents, unpackExponent_packComponents, sign_packComponents,
    if_neg bounded, if_neg normal, mantissa, exponent]
  rfl

theorem unpack_pack_subnormal (sign : Sign) {m : Nat} (positive : 0 < m) (bound : m < 2 ^ 52) :
    UnpackedFloat.unpack .binary64 (UnpackedFloat.pack .binary64 (.finite sign m (-1074) positive)) =
      .finite sign m (-1074) positive := by
  have digits : m.log2 + 1 ≠ 53 := by
    have := (Nat.log2_lt positive.ne').mpr bound
    omega
  have packed : UnpackedFloat.pack .binary64 (.finite sign m (-1074) positive) =
      packComponents .binary64 sign 0#11 (BitVec.ofNat 52 m) := by
    rw [UnpackedFloat.pack]
    simp only [Format.exponentBias, Format.mantissaBits]
    norm_num
    exact fun same => absurd same digits
  have mantissa : (BitVec.ofNat 52 m).toNat = m := toNat_ofNat_of_lt bound
  have nonzero : BitVec.ofNat 52 m ≠ 0#52 := by
    intro same
    have word := congrArg BitVec.toNat same
    rw [mantissa] at word
    exact positive.ne' word
  have bounded : 0#11 ≠ -1#11 := by decide
  rw [packed, UnpackedFloat.unpack]
  simp only [unpackMantissa_packComponents, unpackExponent_packComponents, sign_packComponents,
    if_neg bounded, if_true, dif_neg nonzero, mantissa]
  rfl

variable {value : UnpackedFloat} {x : ℚ}

/-- A double that is not too large is read from its word again. -/
theorem Denotes.unpack_pack (denotes : Denotes value x) (small : |x| < 2 ^ (1024 : ℤ)) :
    UnpackedFloat.unpack .binary64 (UnpackedFloat.pack .binary64 value) = value := by
  cases denotes with
  | zero sign => cases sign <;> rfl
  | @finite sign m e positive bound lowest filled =>
      by_cases full : 2 ^ 52 ≤ m
      · apply unpack_pack_normal sign positive bound full lowest
        have least : ((2 ^ 52 : Nat) : ℚ) ≤ m := by exact_mod_cast full
        have power : (2 : ℚ) ^ (e + (52 : Nat)) < 2 ^ (1024 : ℤ) := by
          calc (2 : ℚ) ^ (e + (52 : Nat)) = (2 ^ 52 : Nat) * 2 ^ e := by
                rw [two_zpow_add_nat]
                norm_num
            _ ≤ m * 2 ^ e := mul_le_mul_of_nonneg_right least (two_zpow_pos e).le
            _ < 2 ^ (1024 : ℤ) := by
              rw [← abs_apply sign]
              exact small
        have := lt_of_two_zpow_lt power
        omega
      · obtain rfl := filled.resolve_right full
        exact unpack_pack_subnormal sign positive (Nat.not_le.mp full)

/-- What is read from a word has a value if it is finite, and there is a bound for all of them. -/
theorem denotes_unpack (word : BitVec 64)
    (finite : (UnpackedFloat.unpack .binary64 word).isFinite = true) :
    ∃ x, Denotes (UnpackedFloat.unpack .binary64 word) x ∧ |x| < 2 ^ (1024 : ℤ) := by
  have mantissa : (@unpackMantissa .binary64 word).toNat < 2 ^ 52 := BitVec.isLt _
  have field : (@unpackExponent .binary64 word).toNat < 2048 := BitVec.isLt _
  have bounds (sign : Sign) {m : Nat} {e : ℤ} (bound : m < 2 ^ 53) (highest : e ≤ 971) :
      |(sign.apply m * 2 ^ e : ℚ)| < 2 ^ (1024 : ℤ) := by
    have most : (m : ℚ) < 2 ^ 53 := by exact_mod_cast bound
    calc |(sign.apply m * 2 ^ e : ℚ)| = m * 2 ^ e := abs_apply sign m e
      _ < 2 ^ 53 * 2 ^ e := mul_lt_mul_of_pos_right most (two_zpow_pos e)
      _ = 2 ^ (e + (53 : Nat)) := (two_zpow_add_nat e 53).symm
      _ ≤ 2 ^ (1024 : ℤ) := two_zpow_le (by omega)
  rw [UnpackedFloat.unpack] at finite ⊢
  dsimp only at finite ⊢
  split at finite
  case isTrue => split at finite <;> cases finite
  case isFalse bounded =>
    rw [if_neg bounded]
    split
    case isTrue least =>
      split
      case isTrue =>
        refine ⟨0, .zero _, ?_⟩
        rw [abs_zero]
        exact two_zpow_pos _
      case isFalse nonzero =>
        have lowest : ((@unpackExponent .binary64 word).toNat : ℤ) - (1023 + 52) + 1 = -1074 := by
          rw [least]
          rfl
        exact ⟨_, .finite _ _ (by omega) lowest.ge (.inl lowest), bounds _ (by omega)
          (lowest.trans_le (by norm_num))⟩
    case isFalse normal =>
      have least : (@unpackExponent .binary64 word).toNat ≠ 0 := by
        intro same
        exact normal (BitVec.eq_of_toNat_eq same)
      have most : (@unpackExponent .binary64 word).toNat ≠ 2047 := by
        intro same
        exact bounded (BitVec.eq_of_toNat_eq same)
      have leading := toNat_leading (@unpackMantissa .binary64 word)
      have lowest : -1074 ≤ ((@unpackExponent .binary64 word).toNat : ℤ) - (1023 + 52) := by
        omega
      have highest : ((@unpackExponent .binary64 word).toNat : ℤ) - (1023 + 52) ≤ 971 := by
        omega
      exact ⟨_, .finite _ _ (by omega) lowest (.inr (by omega)), bounds _ (by omega) highest⟩

/-- A word that is taken apart and put together again has the same parts. -/
theorem unpack_pack_unpack (word : BitVec 64) :
    UnpackedFloat.unpack .binary64
      (UnpackedFloat.pack .binary64 (UnpackedFloat.unpack .binary64 word)) =
        UnpackedFloat.unpack .binary64 word := by
  by_cases finite : (UnpackedFloat.unpack .binary64 word).isFinite = true
  · obtain ⟨x, denotes, small⟩ := denotes_unpack word finite
    exact denotes.unpack_pack small
  · generalize UnpackedFloat.unpack .binary64 word = value at finite
    cases value with
    | notANumber => exact UnpackedFloat.unpack_packedNaN
    | infinity sign => cases sign <;> rfl
    | zero sign => exact absurd rfl finite
    | finite sign m e positive => exact absurd rfl finite

theorem ofFloat_ofBits (word : UInt64) : ofFloat (Float.ofBits word) = ofBits word.toNat := by
  rw [ofFloat_eq]
  change ofUnpacked (UnpackedFloat.unpack .binary64
    (UnpackedFloat.pack .binary64 (UnpackedFloat.unpack .binary64 word.toBitVec))) =
      ofBits word.toBitVec.toNat
  rw [unpack_pack_unpack, ofBits_toNat]

/-- The parts that the exponent and the fraction of a word stand for. -/
def ofFields (negative : Bool) (field fraction : Nat) : Binary64 :=
  if field = 2047 then
    if fraction = 0 then infinite negative else nan
  else if field = 0 then finite negative fraction (-1074)
  else finite negative (leadingBit + fraction) ((field : Int) - 1075)

theorem ofBits_eq (word : Nat) :
    ofBits word = ofFields (decide (signBit ≤ word)) ((word >>> fractionBits) % 2048)
      (word % leadingBit) := rfl

theorem word_of_fields {word : Nat} (short : word < 2 ^ 64) :
    ((word >>> fractionBits) % 2048) <<< fractionBits + word % leadingBit +
      (if signBit ≤ word then signBit else 0) = word := by
  have place : leadingBit = 2 ^ 52 := rfl
  have sign : signBit = 2 ^ 63 := rfl
  rw [place, sign, fractionBits, Nat.shiftRight_eq_div_pow, Nat.shiftLeft_eq]
  split <;> omega

/-- The parts of a word that is put together from an exponent, a fraction and a sign. -/
theorem ofBits_word (negative : Bool) {field fraction : Nat} (wide : field < 2048)
    (low : fraction < leadingBit) :
    ofBits (field <<< fractionBits + fraction + if negative then signBit else 0) =
      ofFields negative field fraction := by
  have place : leadingBit = 2 ^ 52 := rfl
  have sign : signBit = 2 ^ 63 := rfl
  have word : field <<< fractionBits = field * 2 ^ 52 := Nat.shiftLeft_eq field 52
  rw [place] at low
  generalize placed : (field <<< fractionBits + fraction + if negative then signBit else 0) = bits
  have inside : bits % leadingBit = fraction := by
    rw [← placed, word, place, sign]
    split <;> omega
  have above : (bits >>> fractionBits) % 2048 = field := by
    rw [← placed, word, sign, fractionBits, Nat.shiftRight_eq_div_pow]
    split <;> omega
  have marked : decide (signBit ≤ bits) = negative := by
    rw [← placed, word, sign]
    cases negative
    · simp only [Bool.false_eq_true, if_false, decide_eq_false_iff_not]
      omega
    · simp only [if_true, decide_eq_true_eq]
      omega
  rw [ofBits_eq, inside, above, marked]

theorem eq_of_ofFields_eq {negative negative' : Bool} {field field' fraction fraction' : Nat}
    (low : fraction < leadingBit) (low' : fraction' < leadingBit)
    (same : ofFields negative field fraction = ofFields negative' field' fraction')
    (number : ofFields negative' field' fraction' ≠ nan) :
    negative = negative' ∧ field = field' ∧ fraction = fraction' := by
  unfold ofFields at same number
  grind

/-- No two words are the same number. -/
theorem word_eq_of_ofBits_eq {v w : Nat} (left : v < 2 ^ 64) (right : w < 2 ^ 64)
    (same : ofBits v = ofBits w) (number : ofBits w ≠ nan) : v = w := by
  rw [ofBits_eq] at same number
  rw [ofBits_eq] at same
  obtain ⟨sign, field, fraction⟩ := eq_of_ofFields_eq (Nat.mod_lt _ (by decide))
    (Nat.mod_lt _ (by decide)) same number
  rw [← word_of_fields left, ← word_of_fields right, field, fraction]
  simp only [decide_eq_decide.mp sign]

theorem toBits_of_nan {value : Float} (unknown : ofFloat value = nan) :
    value.toBits.toBitVec = UnpackedFloat.packedNaN .binary64 := by
  have parts : (value.toBits.toNat >>> fractionBits) % 2048 = 2047 ∧
      value.toBits.toNat % leadingBit ≠ 0 := by
    rw [ofFloat, ofBits_eq, ofFields] at unknown
    grind
  apply value.toModel.valid.eq_packedNaN
  · apply BitVec.eq_of_toNat_eq
    rw [toNat_unpackExponent]
    exact parts.1
  · intro none
    apply parts.2
    have fraction := congrArg BitVec.toNat none
    rw [toNat_unpackMantissa] at fraction
    exact fraction

/-- A double is known by its parts. -/
theorem ofFloat_injective : Function.Injective ofFloat := by
  intro a b same
  suffices words : a.toBits.toBitVec = b.toBits.toBitVec by
    obtain ⟨⟨⟨v⟩, _⟩⟩ := a
    obtain ⟨⟨⟨w⟩, _⟩⟩ := b
    obtain rfl : v = w := words
    rfl
  by_cases unknown : ofFloat b = nan
  · rw [toBits_of_nan unknown, toBits_of_nan (same.trans unknown)]
  · apply BitVec.eq_of_toNat_eq
    exact word_eq_of_ofBits_eq a.toBits.toBitVec.isLt b.toBits.toBitVec.isLt same unknown

/-- A finite double lies on the grid of its own value. -/
theorem grid_of_finite {value : Float} {negative : Bool} {m : Nat} {e : ℤ}
    (parts : ofFloat value = finite negative m e) : Grid (m * 2 ^ e) e := by
  have low : value.toBits.toNat % leadingBit < 2 ^ 52 := Nat.mod_lt _ (by decide)
  have place : leadingBit = 2 ^ 52 := rfl
  obtain ⟨bound, lowest, filled⟩ : m < 2 ^ 53 ∧ -1074 ≤ e ∧ (e = -1074 ∨ 2 ^ 52 ≤ m) := by
    rw [ofFloat, ofBits_eq, ofFields] at parts
    grind
  exact grid_of_mantissa bound lowest filled

end Frond.Binary64
