import Mathlib
import Frond.Number.Reading
import Frond.Proofs.Number.HalfEven
import Frond.Proofs.Number.Plain

/-!
Integers that are read from text: a sign or none, and digits. The bounds are looked at with every
digit, but a row of digits never comes back from beyond them, so that it is the integer at the end
that counts.
-/

namespace Frond

/-- What stands before a number: a minus sign, a plus sign or nothing. -/
inductive SignText : List Char → Bool → Prop
  | minus : SignText ['-'] true
  | plus : SignText ['+'] false
  | none : SignText [] false

/-- A text does not begin with a sign. -/
def Unsignedly (text : List Char) : Prop := text.head? ≠ some '-' ∧ text.head? ≠ some '+'

theorem splitSign_append {front text : List Char} {negative : Bool} (sign : SignText front negative)
    (bare : Unsignedly text) : splitSign (front ++ text) = (negative, text) := by
  cases sign with
  | minus => rfl
  | plus => rfl
  | none =>
      rw [List.nil_append]
      unfold splitSign
      split
      case h_1 => exact absurd rfl bare.1
      case h_2 => exact absurd rfl bare.2
      case h_3 => rfl

theorem signText_splitSign (text : List Char) :
    ∃ front, text = front ++ (splitSign text).2 ∧ SignText front (splitSign text).1 := by
  unfold splitSign
  split
  case h_1 rest => exact ⟨['-'], rfl, .minus⟩
  case h_2 rest => exact ⟨['+'], rfl, .plus⟩
  case h_3 => exact ⟨[], rfl, .none⟩

theorem Digits.unsignedly {digits : List Char} (sound : Digits digits) : Unsignedly digits := by
  obtain ⟨c, rest, rfl⟩ := List.exists_cons_of_ne_nil sound.1
  have digit := sound.2 c List.mem_cons_self
  refine ⟨?_, ?_⟩
  · rintro ⟨⟩
    cases digit
  · rintro ⟨⟩
    cases digit

/-- A text spells an integer. -/
def SpellsInteger (text : List Char) (n : ℤ) : Prop :=
  ∃ front negative digits, text = front ++ digits ∧ SignText front negative ∧ Digits digits ∧
    n = withSign negative (Nat.ofDigitChars 10 digits 0 : ℤ)

theorem le_ofDigitChars (digits : List Char) (total : Nat) :
    total ≤ Nat.ofDigitChars 10 digits total := by
  induction digits generalizing total with
  | nil => exact le_rfl
  | cons c rest ih =>
      rw [Nat.ofDigitChars_cons]
      calc total ≤ 10 * total + (c.toNat - '0'.toNat) := by omega
        _ ≤ _ := ih _

section

variable {low high n : ℤ} (below : low ≤ 0) (above : 0 ≤ high)

include below above

/-- Digits lead away from zero, and not back from beyond a bound. -/
theorem beyond_of_beyond (negative : Bool) (digits : List Char) (total : Nat)
    (beyond : high < withSign negative (total : ℤ) ∨ withSign negative (total : ℤ) < low) :
    high < withSign negative (Nat.ofDigitChars 10 digits total : ℤ) ∨
      withSign negative (Nat.ofDigitChars 10 digits total : ℤ) < low := by
  have further := le_ofDigitChars digits total
  cases negative with
  | false =>
      simp only [withSign, Bool.false_eq_true, if_false] at beyond ⊢
      omega
  | true =>
      simp only [withSign, if_true] at beyond ⊢
      omega

/-- Digits are appended to a total as long as it stays within the bounds. -/
theorem appendDigits_eq_ok_iff {negative : Bool} {digits : List Char} {total : Nat}
    (least : low ≤ withSign negative (total : ℤ)) (most : withSign negative (total : ℤ) ≤ high) :
    appendDigits low high negative (withSign negative total) digits = .ok n ↔
      (∀ c ∈ digits, c.isDigit = true) ∧
        n = withSign negative (Nat.ofDigitChars 10 digits total : ℤ) ∧ low ≤ n ∧ n ≤ high := by
  induction digits generalizing total with
  | nil =>
      rw [appendDigits, Except.ok.injEq]
      constructor
      · rintro rfl
        exact ⟨List.forall_mem_nil _, rfl, least, most⟩
      · rintro ⟨_, rfl, _⟩
        rfl
  | cons c rest ih =>
      by_cases digit : c.isDigit = true
      · have step : (if negative then 10 * withSign negative (total : ℤ) - digitValue c
            else 10 * withSign negative (total : ℤ) + digitValue c) =
              withSign negative ((10 * total + digitValue c : Nat) : ℤ) := by
          cases negative with
          | false => simp [withSign]
          | true =>
              simp only [withSign, if_true]
              push_cast
              ring
        have value : Nat.ofDigitChars 10 (c :: rest) total =
            Nat.ofDigitChars 10 rest (10 * total + digitValue c) := Nat.ofDigitChars_cons
        rw [appendDigits, digit, Bool.not_true, if_neg Bool.false_ne_true, step,
          List.forall_mem_cons, and_iff_right digit, value]
        have beyond := beyond_of_beyond below above negative rest (10 * total + digitValue c)
        dsimp only
        split
        case isTrue large =>
          constructor
          · intro read
            cases read
          · rintro ⟨_, rfl, least, most⟩
            have := beyond (.inl large)
            omega
        case isFalse fits =>
          split
          case isTrue small =>
            constructor
            · intro read
              cases read
            · rintro ⟨_, rfl, least, most⟩
              have := beyond (.inr small)
              omega
          case isFalse reaches => exact ih (not_lt.mp reaches) (not_lt.mp fits)
      · rw [appendDigits, if_pos (by simpa using digit)]
        constructor
        · intro read
          cases read
        · rintro ⟨sound, _⟩
          exact absurd (sound c List.mem_cons_self) digit

/-- The integers within the bounds are read, as the integers that they are. -/
theorem readInteger_eq_ok_iff {text : String} :
    readInteger low high text = .ok n ↔ SpellsInteger text.toList n ∧ low ≤ n ∧ n ≤ high := by
  have appended (negative : Bool) (digits : List Char) :
      appendDigits low high negative 0 digits = .ok n ↔ (∀ c ∈ digits, c.isDigit = true) ∧
        n = withSign negative (Nat.ofDigitChars 10 digits 0 : ℤ) ∧ low ≤ n ∧ n ≤ high := by
    have zero : withSign negative ((0 : Nat) : ℤ) = 0 := by cases negative <;> rfl
    have least : low ≤ withSign negative ((0 : Nat) : ℤ) := zero.symm ▸ below
    have most : withSign negative ((0 : Nat) : ℤ) ≤ high := zero.symm ▸ above
    rw [← appendDigits_eq_ok_iff below above least most, zero]
  rw [readInteger]
  constructor
  · intro read
    obtain ⟨front, cut, sign⟩ := signText_splitSign text.toList
    split at read
    case isTrue => cases read
    case isFalse =>
      dsimp only at read
      split at read
      case isTrue => cases read
      case isFalse nonempty =>
        obtain ⟨sound, value, within⟩ := (appended _ _).mp read
        have digits : Digits (splitSign text.toList).2 := ⟨by simpa using nonempty, sound⟩
        exact ⟨⟨front, _, _, cut, sign, digits, value⟩, within⟩
  · rintro ⟨⟨front, negative, digits, cut, sign, sound, value⟩, within⟩
    have filled : ¬text.isEmpty = true := by
      intro empty
      rw [String.isEmpty_iff.mp empty] at cut
      exact sound.1 (List.append_eq_nil_iff.mp cut.symm).2
    rw [if_neg filled, cut, splitSign_append sign sound.unsignedly]
    dsimp only
    rw [if_neg (by simpa using sound.1)]
    exact (appended negative digits).mpr ⟨sound.2, value, within⟩

end

end Frond
