import Mathlib
import Frond.Number.Fixed

/-!
Doubles that are equal as numbers. The bits of a double are taken apart in two ways, by the
comparison of doubles and by the reading of their exact value, and both give the same parts.
So equal doubles have the same parts, unless they are the two zeros, and they are written alike.
-/

namespace Frond

open Float.Model (UnpackedFloat)
open Float.Model.UnpackedFloat (Sign)

namespace Binary64

def isNegative : Sign → Bool
  | .negative => true
  | .positive => false

/-- The parts by which doubles are compared, as parts of an exact value. -/
def ofUnpacked : UnpackedFloat → Binary64
  | .notANumber => nan
  | .infinity sign => infinite (isNegative sign)
  | .zero sign => finite (isNegative sign) 0 (-1074)
  | .finite sign mantissa exponent _ => finite (isNegative sign) mantissa exponent

theorem toNat_unpackMantissa (word : BitVec 64) :
    (@UnpackedFloat.unpackMantissa .binary64 word).toNat = word.toNat % leadingBit := by
  simp [UnpackedFloat.unpackMantissa, leadingBit, fractionBits]

theorem toNat_unpackExponent (word : BitVec 64) :
    (@UnpackedFloat.unpackExponent .binary64 word).toNat =
      (word.toNat >>> fractionBits) % 2048 := by
  simp [UnpackedFloat.unpackExponent, fractionBits]

theorem isNegative_unpackSign (word : BitVec 64) :
    isNegative (Sign.ofBitVec (@UnpackedFloat.unpackSign .binary64 word)) =
      decide (signBit ≤ word.toNat) := by
  have bound : word.toNat < 2 ^ 64 := word.isLt
  have bit : (@UnpackedFloat.unpackSign .binary64 word).toNat = word.toNat / 2 ^ 63 := by
    simp only [UnpackedFloat.unpackSign, BitVec.toNat_cast, BitVec.extractLsb_toNat,
      Nat.shiftRight_eq_div_pow]
    omega
  have sign : signBit = 2 ^ 63 := rfl
  by_cases low : word.toNat < 2 ^ 63
  · have clear : @UnpackedFloat.unpackSign .binary64 word = 0#1 := by
      apply BitVec.eq_of_toNat_eq
      rw [bit, Nat.div_eq_of_lt low]
      rfl
    have small : decide (signBit ≤ word.toNat) = false :=
      decide_eq_false (sign ▸ Nat.not_le.mpr low)
    rw [clear, small]
    rfl
  · have raised : @UnpackedFloat.unpackSign .binary64 word ≠ 0#1 := by
      intro clear
      rw [clear] at bit
      simp at bit
      omega
    have large : decide (signBit ≤ word.toNat) = true :=
      decide_eq_true (sign ▸ Nat.not_lt.mp low)
    rw [large, Sign.ofBitVec, if_neg raised]
    rfl

theorem toNat_implicit (word : BitVec 64) :
    (1#1 ++ @UnpackedFloat.unpackMantissa .binary64 word).toNat =
      leadingBit + word.toNat % leadingBit := by
  rw [BitVec.toNat_append, ← Nat.shiftLeft_add_eq_or_of_lt (BitVec.isLt _), toNat_unpackMantissa]
  rfl

/-- Both ways to take a word apart give the same parts. -/
theorem ofBits_toNat (word : BitVec 64) :
    ofBits word.toNat = ofUnpacked (UnpackedFloat.unpack .binary64 word) := by
  have mantissa := toNat_unpackMantissa word
  have exponent := toNat_unpackExponent word
  have full : @UnpackedFloat.unpackExponent .binary64 word = -1#11 ↔
      (word.toNat >>> fractionBits) % 2048 = 2047 := by
    rw [← exponent, ← BitVec.toNat_inj]
    rfl
  have least : @UnpackedFloat.unpackExponent .binary64 word = 0#11 ↔
      (word.toNat >>> fractionBits) % 2048 = 0 := by
    rw [← exponent, ← BitVec.toNat_inj]
    rfl
  have whole : @UnpackedFloat.unpackMantissa .binary64 word = 0#52 ↔
      word.toNat % leadingBit = 0 := by
    rw [← mantissa, ← BitVec.toNat_inj]
    rfl
  simp only [ofBits, UnpackedFloat.unpack]
  split
  case isTrue infinite =>
    rw [if_pos (full.mpr infinite)]
    split
    case isTrue zero => simp only [if_pos (whole.mpr zero), ofUnpacked, isNegative_unpackSign]
    case isFalse payload => simp only [if_neg (mt whole.mp payload), ofUnpacked]
  case isFalse bounded =>
    rw [if_neg (mt full.mp bounded)]
    split
    case isTrue subnormal =>
      rw [if_pos (least.mpr subnormal)]
      by_cases zero : word.toNat % leadingBit = 0
      · simp only [dif_pos (whole.mpr zero), ofUnpacked, isNegative_unpackSign, zero]
      · simp only [dif_neg (mt whole.mp zero), ofUnpacked, isNegative_unpackSign, mantissa,
          exponent, subnormal]
        rfl
    case isFalse normal =>
      simp only [if_neg (mt least.mp normal), ofUnpacked, isNegative_unpackSign, exponent]
      exact congrArg (finite _ · _) (toNat_implicit word).symm

theorem ofFloat_eq (value : Float) : ofFloat value = ofUnpacked value.toModel.unpack :=
  ofBits_toNat value.toModel.toBits.toBitVec

theorem eq_of_compare_sign {sign other : Sign} (equal : compare sign other = .eq) :
    sign = other := by
  cases sign <;> cases other <;> first | rfl | cases equal

theorem eq_of_compare_parts {m n : Nat} {e f : Int}
    (equal : (compare e f).then (compare m n) = .eq) : m = n ∧ e = f := by
  obtain ⟨exponents, mantissas⟩ := Ordering.then_eq_eq.mp equal
  exact ⟨Nat.compare_eq_eq.mp mantissas, Int.compare_eq_eq.mp exponents⟩

/-- Only the zeros are equal without having the same parts. -/
theorem ofUnpacked_of_beq {left right : UnpackedFloat} (equal : left.beq right = true) :
    ofUnpacked left = ofUnpacked right ∨
      (∃ sign, left = .zero sign) ∧ ∃ sign, right = .zero sign := by
  simp only [UnpackedFloat.beq, beq_iff_eq] at equal
  revert equal
  -- The cases of the comparison in which it does not answer with another order.
  fun_cases UnpackedFloat.compare left right <;> intro equal <;> try cases equal
  case case3 sign other =>
      left
      rw [eq_of_compare_sign (Option.some.inj equal)]
  case case12 sign other => exact .inr ⟨⟨sign, rfl⟩, other, rfl⟩
  case case13 m e positive n f positive' =>
      obtain ⟨rfl, rfl⟩ := eq_of_compare_parts (Ordering.swap_eq_eq.mp (Option.some.inj equal))
      exact .inl rfl
  case case16 m e positive n f positive' =>
      obtain ⟨rfl, rfl⟩ := eq_of_compare_parts (Option.some.inj equal)
      exact .inl rfl

/-- A zero has no sign when it is written. -/
theorem numeral_zero (sign : Sign) :
    Fixed.shorten (Fixed.ofBinary 2 (ofUnpacked (.zero sign))) = ['0'] := by
  cases sign <;> decide

end Binary64

/-- Doubles that are equal as numbers are written alike. -/
theorem numeral_congr {a b : Float} (equal : (a == b) = true) : numeral a = numeral b := by
  change Fixed.shorten (Fixed.ofBinary 2 (Binary64.ofFloat a)) =
    Fixed.shorten (Fixed.ofBinary 2 (Binary64.ofFloat b))
  rw [Binary64.ofFloat_eq, Binary64.ofFloat_eq]
  rcases Binary64.ofUnpacked_of_beq equal with same | ⟨⟨sign, left⟩, ⟨other, right⟩⟩
  · rw [same]
  · rw [left, right, Binary64.numeral_zero, Binary64.numeral_zero]

end Frond
