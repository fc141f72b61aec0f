import Mathlib
import Frond.Proofs.Number.Hundredths
import Frond.Proofs.Number.Region

/-!
Coordinates have one spelling each. A finite double is written with no digit that could be left
out, as the value that it has when it is rounded to hundredths, half to even; and a whole number
keeps all of its digits.
-/

namespace Frond

namespace Fixed

/-- No zero stands in front but the only digit, there are two decimals at most, and the last one
is no zero. -/
structure Concise (whole fraction : List Char) : Prop where
  digits : Digits whole
  front : whole.head? = some '0' → whole = ['0']
  decimals : ∀ c ∈ fraction, c.isDigit = true
  few : fraction.length ≤ 2
  last : fraction.getLast? ≠ some '0'

theorem concise_parts (scaled : Nat) : Concise (whole scaled) (fraction scaled) where
  digits := digits_whole scaled
  front := toDigits_of_head?_zero
  decimals := fun _ => isDigit_of_mem_fraction
  few := by
    obtain ⟨zeros, length, _⟩ := exists_decimals scaled
    omega
  last := getLast?_dropEnd_ne '0' _

end Fixed

/-- A numeral with a sign or none, and with a point and decimals or neither, that is as short as can
be. -/
def Canonical (text : String) : Prop :=
  ∃ negative whole fraction,
    text.toList = Fixed.signed negative (whole ++ Fixed.pointed fraction) ∧
      Fixed.Concise whole fraction

theorem canonical_ofHundredths (count : ℤ) :
    Canonical (String.ofList (Fixed.ofHundredths count)) := by
  obtain ⟨negative, scaled, rfl⟩ := exists_withSign count
  rw [Fixed.ofHundredths_withSign, Fixed.shorten_digits]
  split
  · exact ⟨false, _, _, rfl, Fixed.concise_parts 0⟩
  · exact ⟨negative, _, _, String.toList_ofList, Fixed.concise_parts scaled⟩

theorem ofHundredths_ne_minus_zero (count : ℤ) :
    String.ofList (Fixed.ofHundredths count) ≠ "-0" := by
  intro same
  -- It spells zero, which is written without a sign.
  have read := Fixed.decimalValue?_ofHundredths count
  have bare : decimalValue? "-0" = some 0 := by decide +kernel
  rw [same, bare, Option.some_inj, eq_comm, div_eq_zero_iff] at read
  have none : count = 0 := by simpa using read
  rw [none] at same
  exact absurd same (by decide)

/-- How a text writes a value in hundredths. -/
structure InHundredths (text : String) (x : ℚ) : Prop where
  canonical : Canonical text
  signed : text ≠ "-0"
  rounded : NearestEven (hundredths x) (100 * x)
  value : decimalValue? text = some ((hundredths x : ℚ) / 100)
  zero : text = "0" ↔ |x| ≤ 1 / 200
  whole : ∀ n : ℤ, x = n → text = toString n

theorem inHundredths (x : ℚ) :
    InHundredths (String.ofList (Fixed.ofHundredths (hundredths x))) x where
  canonical := canonical_ofHundredths _
  signed := ofHundredths_ne_minus_zero _
  rounded := nearestEven_hundredths x
  value := Fixed.decimalValue?_ofHundredths _
  zero := by
    rw [← hundredths_eq_zero_iff]
    have bare : String.ofList (Fixed.ofHundredths 0) = "0" := by decide
    rw [← bare, String.ofList_inj]
    exact Fixed.ofHundredths_injective.eq_iff
  whole := by
    rintro n rfl
    rw [hundredths_intCast]
    exact Fixed.ofHundredths_whole n

/-- Every finite double has a value and is written as that value in hundredths, so doubles are
written alike if and only if their values are rounded to the same hundredth. -/
theorem doubles_in_hundredths :
    (∀ v : Float, v.isFinite = true → ∃ x, Denotes v x) ∧
      (∀ v x, Denotes v x → InHundredths (numeralText v) x) ∧
      ∀ v w x y, Denotes v x → Denotes w y →
        (numeralText v = numeralText w ↔ hundredths x = hundredths y) := by
  refine ⟨?_, ?_, ?_⟩
  · intro v finite
    obtain ⟨x, denotes, _⟩ := denotes_of_isFinite finite
    exact ⟨x, denotes⟩
  · intro v x denotes
    rw [numeralText, numeral_of_denotes denotes]
    exact inHundredths x
  · intro v w x y first second
    rw [numeralText, numeralText, numeral_of_denotes first, numeral_of_denotes second,
      String.ofList_inj]
    exact Fixed.ofHundredths_injective.eq_iff

/-- A tie, a number of twenty-two digits, and a small negative number beside the negative zero. -/
theorem eighth_in_hundredths :
    ((0.125 : Float).isFinite = true ∧ Denotes 0.125 (1 / 8) ∧
        Denotes 1180591620717411303424.0 (2 ^ 70 : ℤ) ∧ Denotes (-0.0009765625) (-1 / 1024) ∧
        Denotes (-0.0) 0) ∧
      (∃ x, Denotes 0.125 x) ∧ decimalValue? (numeralText 0.125) = some (12 / 100) ∧
      numeralText 1180591620717411303424.0 = "1180591620717411303424" ∧
      numeralText (-0.0009765625) = "0" ∧ numeralText (-0.0009765625) = numeralText (-0.0) := by
  have tie : Denotes 0.125 (1 / 8) := denotes_power .positive (-55) rfl (by norm_num) (by
    norm_num [Float.Model.UnpackedFloat.Sign.apply])
  have large : Denotes 1180591620717411303424.0 ((2 ^ 70 : ℤ) : ℚ) :=
    denotes_power .positive 18 rfl (by norm_num) (by
      norm_num [Float.Model.UnpackedFloat.Sign.apply])
  have tiny : Denotes (-0.0009765625) (-1 / 1024) :=
    denotes_power .negative (-62) rfl (by norm_num) (by
      norm_num [Float.Model.UnpackedFloat.Sign.apply])
  have zero : Denotes (-0.0) 0 := .zero .negative
  obtain ⟨valued, written, alike⟩ := doubles_in_hundredths
  refine ⟨⟨by decide, tie, large, tiny, zero⟩, valued 0.125 (by decide), ?_, ?_, ?_, ?_⟩
  · have even : hundredths (1 / 8) = 12 := by decide +kernel
    rw [(written _ _ tie).value, even]
    norm_num
  · exact (written _ _ large).whole (2 ^ 70) rfl
  · exact (written _ _ tiny).zero.mpr (by norm_num [abs_of_neg])
  · exact (alike _ _ _ _ tiny zero).mpr (by decide +kernel)

end Frond
