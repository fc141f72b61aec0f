import Mathlib
import Frond.Proofs.Number.Arithmetic
import Frond.Proofs.Number.Exact

/-!
How coordinates are written: the hundredths of a number in full, less the zeros at the end. A reader
finds the number rounded to hundredths again, so numbers are written alike if and only if they are
rounded to the same hundredth.
-/

namespace Frond

namespace Fixed

theorem exists_zeros (text : List Char) :
    ∃ zeros, text = dropEnd '0' text ++ List.replicate zeros '0' := by
  refine ⟨(text.reverse.takeWhile (· == '0')).length, ?_⟩
  have zeros : (text.reverse.takeWhile (· == '0')).reverse =
      List.replicate (text.reverse.takeWhile (· == '0')).length '0' := by
    rw [List.eq_replicate_iff, List.length_reverse]
    refine ⟨rfl, ?_⟩
    intro c member
    have zero := List.mem_takeWhile_imp (p := (· == '0')) (List.mem_reverse.mp member)
    exact beq_iff_eq.mp zero
  rw [← zeros, dropEnd, ← List.reverse_append, List.takeWhile_append_dropWhile,
    List.reverse_reverse]

theorem getLast?_dropEnd_ne (c : Char) (text : List Char) : (dropEnd c text).getLast? ≠ some c := by
  intro last
  rw [dropEnd, List.getLast?_reverse] at last
  have kept := List.head?_dropWhile_not (· == c) text.reverse
  rw [last] at kept
  simp at kept

/-- The digits before the point. -/
def whole (scaled : Nat) : List Char := Nat.toDigits 10 (scaled / 100)

/-- The decimals that are written. -/
def fraction (scaled : Nat) : List Char :=
  dropEnd '0' ((Nat.toDigits 10 (scaled % 100)).leftpad 2 '0')

variable (scaled : Nat)

theorem digits_whole : Digits (whole scaled) := digits_toDigits _

theorem isDigit_of_mem_fraction {scaled : Nat} {c : Char} (member : c ∈ fraction scaled) :
    c.isDigit = true :=
  isDigit_of_mem_leftpad (mem_of_mem_dropEnd member)

/-- Two decimals are found again when the zeros are put back. -/
theorem exists_decimals : ∃ zeros, (fraction scaled).length + zeros = 2 ∧
    Nat.ofDigitChars 10 (whole scaled ++ fraction scaled) 0 * 10 ^ zeros = scaled := by
  obtain ⟨zeros, split⟩ := exists_zeros ((Nat.toDigits 10 (scaled % 100)).leftpad 2 '0')
  change _ = fraction scaled ++ List.replicate zeros '0' at split
  have small : scaled % 100 < 10 ^ 2 := Nat.mod_lt _ (by decide)
  have length : (fraction scaled ++ List.replicate zeros '0').length = 2 := by
    rw [← split]
    exact length_leftpad_toDigits (by decide) small
  have value : Nat.ofDigitChars 10 (fraction scaled ++ List.replicate zeros '0') 0 =
      scaled % 100 := by
    rw [← split]
    exact ofDigitChars_leftpad
  refine ⟨zeros, ?_, ?_⟩
  · rw [List.length_append, List.length_replicate] at length
    exact length
  · calc Nat.ofDigitChars 10 (whole scaled ++ fraction scaled) 0 * 10 ^ zeros
        = Nat.ofDigitChars 10
            (whole scaled ++ (fraction scaled ++ List.replicate zeros '0')) 0 := by
          rw [← List.append_assoc, Nat.ofDigitChars_append (l := whole scaled ++ fraction scaled),
            Nat.ofDigitChars_replicate_zero, Nat.mul_comm]
      _ = 10 ^ 2 * (scaled / 100) + scaled % 100 := by
          rw [Nat.ofDigitChars_append, Nat.ofDigitChars_eq_ofDigitChars_zero, length, value, whole,
            Nat.ofDigitChars_ten_toDigits]
      _ = scaled := Nat.div_add_mod scaled 100

/-- What is written before a zero loses its sign. -/
def written (negative : Bool) (scaled : Nat) : List Char :=
  signed negative (whole scaled ++ pointed (fraction scaled))

theorem decimalValue?_written (negative : Bool) :
    decimalValue? (String.ofList (written negative scaled)) =
      some (withSign negative ((scaled : ℚ) / 100)) := by
  obtain ⟨zeros, length, value⟩ := exists_decimals scaled
  have power : (10 : ℚ) ^ zeros * 10 ^ (fraction scaled).length = 100 := by
    rw [← pow_add, Nat.add_comm, length]
    norm_num
  have quotient : (Nat.ofDigitChars 10 (whole scaled ++ fraction scaled) 0 : ℚ) /
      10 ^ (fraction scaled).length = scaled / 100 := by
    rw [div_eq_div_iff (by positivity) (by norm_num), ← power, ← mul_assoc]
    congr 1
    exact_mod_cast value
  rw [written, decimalValue?_signed negative (digits_whole scaled) fun c member =>
    isDigit_of_mem_fraction member, quotient]

theorem shorten_digits (negative : Bool) :
    shorten (signed negative (digits 2 scaled)) =
      if scaled = 0 then ['0'] else written negative scaled := by
  have short : dropEnd '.' (dropEnd '0' (signed negative (digits 2 scaled))) =
      written negative scaled :=
    dropEnd_decimals negative (digits_whole scaled) fun c member => isDigit_of_mem_leftpad member
  rw [shorten, short]
  by_cases none : scaled = 0
  · rw [if_pos none, none]
    cases negative <;> decide
  · rw [if_neg none, if_neg]
    intro zero
    -- Otherwise the value that is read would be zero.
    have read := decimalValue?_written scaled negative
    have bare : decimalValue? (String.ofList ['-', '0']) = some 0 := by decide +kernel
    rw [zero, bare, Option.some_inj, eq_comm] at read
    apply none
    cases negative <;> simpa [withSign] using read

/-- The numeral of a count of hundredths. -/
def ofHundredths (count : ℤ) : List Char :=
  shorten (signed (decide (count < 0)) (digits 2 count.natAbs))

theorem ofHundredths_withSign (negative : Bool) :
    ofHundredths (withSign negative (scaled : ℤ)) =
      shorten (signed negative (digits 2 scaled)) := by
  have size : (withSign negative (scaled : ℤ)).natAbs = scaled := by
    cases negative <;> simp [withSign]
  rw [ofHundredths, size, shorten_digits, shorten_digits]
  by_cases none : scaled = 0
  · rw [if_pos none, if_pos none]
  · have sign : decide (withSign negative (scaled : ℤ) < 0) = negative := by
      cases negative with
      | false => exact decide_eq_false (Int.natCast_nonneg scaled).not_gt
      | true => exact decide_eq_true (by simp [withSign]; omega)
    rw [sign]

theorem decimalValue?_ofHundredths (count : ℤ) :
    decimalValue? (String.ofList (ofHundredths count)) = some ((count : ℚ) / 100) := by
  obtain ⟨negative, scaled, rfl⟩ := exists_withSign count
  rw [ofHundredths_withSign, shorten_digits]
  split
  case isTrue zero =>
    rw [zero]
    cases negative <;> decide +kernel
  case isFalse =>
    rw [decimalValue?_written, Option.some_inj]
    cases negative with
    | false => rfl
    | true =>
        simp only [withSign, if_true]
        push_cast
        ring

theorem ofHundredths_injective : Function.Injective ofHundredths := by
  intro m n same
  have left := decimalValue?_ofHundredths m
  rw [same, decimalValue?_ofHundredths n, Option.some_inj,
    div_left_inj' (by norm_num)] at left
  exact_mod_cast left.symm

/-- A whole number is written with all of its digits and nothing else. -/
theorem ofHundredths_whole (n : ℤ) : String.ofList (ofHundredths (100 * n)) = toString n := by
  obtain ⟨negative, digits, rfl⟩ := exists_withSign n
  have scaled : 100 * withSign negative (digits : ℤ) =
      withSign negative ((100 * digits : Nat) : ℤ) := by
    cases negative <;> simp [withSign]
  have part : fraction (100 * digits) = [] := by
    rw [fraction, Nat.mul_mod_right]
    decide
  have front : whole (100 * digits) = Nat.toDigits 10 digits := by
    rw [whole, Nat.mul_div_cancel_left digits (by decide)]
  rw [scaled, ofHundredths_withSign, shorten_digits]
  by_cases none : digits = 0
  · rw [none]
    cases negative <;> decide
  · rw [if_neg (by omega), written, part, front, pointed, List.append_nil, Int.toString_eq_repr,
      Int.repr_eq_if]
    apply String.toList_inj.mp
    cases negative with
    | false => simp [withSign, signed, Nat.toList_repr]
    | true => simp [withSign, signed, none, Nat.toList_repr]

/-- The quotient with its sign is written as the hundredths that it has when it is rounded. -/
theorem shorten_ofRatio (negative : Bool) (num : Nat) {den : Nat} (positive : 0 < den) :
    shorten (ofRatio 2 negative num den) =
      ofHundredths (hundredths (withSign negative ((num : ℚ) / den))) := by
  have nearest := (nearestEven_roundHalfEven (num * 100) positive).withSign negative
  have scaled : withSign negative (((num * 100 : Nat) : ℚ) / den) =
      100 * withSign negative ((num : ℚ) / den) := by
    rw [← withSign_mul]
    push_cast
    ring_nf
  rw [scaled] at nearest
  rw [hundredths_eq nearest, ofHundredths_withSign]
  rfl

end Fixed

theorem Binary64.shorten_of_denotes {value : Float.Model.UnpackedFloat} {x : ℚ}
    (denotes : Denotes value x) :
    Fixed.shorten (Fixed.ofBinary 2 (ofUnpacked value)) =
      Fixed.ofHundredths (hundredths x) := by
  cases denotes with
  | zero sign =>
      have none : hundredths 0 = 0 := by decide +kernel
      rw [numeral_zero, none]
      decide
  | @finite sign m e =>
      have positive : 0 < 1 <<< (-e).toNat := by
        rw [Nat.shiftLeft_eq]
        positivity
      have signed : withSign (isNegative sign) ((m : ℚ) * 2 ^ e) = sign.apply m * 2 ^ e := by
        cases sign <;> simp [withSign, isNegative, Float.Model.UnpackedFloat.Sign.apply]
      have written :=
        Fixed.shorten_ofRatio (isNegative sign) (m <<< e.toNat) positive
      rw [shiftLeft_div_shiftLeft, Nat.cast_one, div_one, signed] at written
      exact written

/-- A finite double is written as the hundredths that its value has when it is rounded. -/
theorem numeral_of_denotes {v : Float} {x : ℚ} (denotes : Denotes v x) :
    numeral v = Fixed.ofHundredths (hundredths x) := by
  change Fixed.shorten (Fixed.ofBinary 2 (Binary64.ofFloat v)) = _
  rw [Binary64.ofFloat_eq]
  exact Binary64.shorten_of_denotes denotes

/-- Exact numbers are written with the same digits. -/
instance : Numeral ℚ where
  numeral x := Fixed.shorten (Fixed.ofRatio 2 (decide (x < 0)) x.num.natAbs x.den)

theorem numeral_rat (x : ℚ) : numeral x = Fixed.ofHundredths (hundredths x) := by
  change Fixed.shorten (Fixed.ofRatio 2 (decide (x < 0)) x.num.natAbs x.den) = _
  rw [Fixed.shorten_ofRatio _ _ x.den_pos, natAbs_num_div_den, withSign_abs]

end Frond
