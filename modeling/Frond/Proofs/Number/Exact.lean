import Mathlib
import Frond.Proofs.Number.HalfEven
import Frond.Proofs.Number.Plain

/-!
A reader of decimal numerals that gives their exact value: an optional minus sign, digits, and a
point and more digits or nothing. No digit is lost to it, however many there are.
-/

namespace Frond

/-- The value of digits that may have a point and more digits behind them. -/
def unsignedValue? (text : List Char) : Option ℚ :=
  let whole := text.takeWhile Char.isDigit
  let fraction? :=
    match text.dropWhile Char.isDigit with
    | [] => some []
    | '.' :: decimals => if decimals ≠ [] ∧ decimals.all Char.isDigit then some decimals else none
    | _ => none
  if whole = [] then none
  else fraction?.map fun fraction =>
    (Nat.ofDigitChars 10 (whole ++ fraction) 0 : ℚ) / 10 ^ fraction.length

/-- The value that a decimal numeral spells. -/
def decimalValue? (text : String) : Option ℚ :=
  match text.toList with
  | '-' :: rest => (unsignedValue? rest).map fun value => -value
  | rest => unsignedValue? rest

example : decimalValue? "-2.50" = some (-5 / 2) ∧ decimalValue? "1." = none := by decide +kernel

variable {whole fraction : List Char}

theorem unsignedValue?_pointed (digits : Digits whole)
    (decimals : ∀ c ∈ fraction, c.isDigit = true) :
    unsignedValue? (whole ++ Fixed.pointed fraction) =
      some ((Nat.ofDigitChars 10 (whole ++ fraction) 0 : ℚ) / 10 ^ fraction.length) := by
  have taken : (whole ++ Fixed.pointed fraction).takeWhile Char.isDigit = whole := by
    rw [List.takeWhile_append_of_pos digits.2]
    cases fraction <;> simp [Fixed.pointed]
  have dropped : (whole ++ Fixed.pointed fraction).dropWhile Char.isDigit =
      Fixed.pointed fraction := by
    rw [List.dropWhile_append_of_pos digits.2]
    cases fraction <;> simp [Fixed.pointed]
  rw [unsignedValue?]
  simp only [taken, dropped, if_neg digits.1]
  cases fraction with
  | nil => rfl
  | cons c rest =>
      have sound : c :: rest ≠ [] ∧ (c :: rest).all Char.isDigit = true :=
        ⟨List.cons_ne_nil c rest, List.all_eq_true.mpr decimals⟩
      simp only [Fixed.pointed, if_pos sound, Option.map_some]

theorem decimalValue?_signed (negative : Bool) (digits : Digits whole)
    (decimals : ∀ c ∈ fraction, c.isDigit = true) :
    decimalValue? (String.ofList (Fixed.signed negative (whole ++ Fixed.pointed fraction))) =
      some (withSign negative
        ((Nat.ofDigitChars 10 (whole ++ fraction) 0 : ℚ) / 10 ^ fraction.length)) := by
  have value := unsignedValue?_pointed digits decimals
  rw [decimalValue?, String.toList_ofList]
  cases negative with
  | true =>
      change (unsignedValue? (whole ++ Fixed.pointed fraction)).map _ = _
      rw [value]
      rfl
  | false =>
      change (match whole ++ Fixed.pointed fraction with
        | '-' :: rest => (unsignedValue? rest).map fun value => -value
        | rest => unsignedValue? rest) = _
      split
      case h_1 rest minus =>
        obtain ⟨c, others, rfl⟩ := List.exists_cons_of_ne_nil digits.1
        cases (List.cons.inj minus).1
        cases digits.2 '-' List.mem_cons_self
      case h_2 => exact value

end Frond
