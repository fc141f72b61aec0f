import Mathlib
import Frond.Proofs.Number.Characters
import Frond.Proofs.Number.Digits
import Frond.Proofs.Number.Equality

/-!
Numbers that are written as plain decimal numerals, without a letter. These are the finite ones:
two decimals are written and zeros at the end taken off again, which leaves a digit on either side
of the point or no point at all.
-/

namespace Frond

def Digits (text : List Char) : Prop := text ≠ [] ∧ ∀ c ∈ text, c.isDigit = true

/-- Digits, and a point and more digits after them or nothing. -/
inductive Unsigned : List Char → Prop
  | whole (whole : List Char) (digits : Digits whole) : Unsigned whole
  | decimal (whole fraction : List Char) (digits : Digits whole) (decimals : Digits fraction) :
      Unsigned (whole ++ '.' :: fraction)

/-- A decimal numeral, which may have a minus sign. -/
def Plain (text : String) : Prop :=
  ∃ negative unsigned, text.toList = Fixed.signed negative unsigned ∧ Unsigned unsigned

theorem Unsigned.chars {text : List Char} (unsigned : Unsigned text) :
    ∀ c ∈ text, c.isDigit = true ∨ c = '.' := by
  intro c member
  cases unsigned with
  | whole _ digits => exact .inl (digits.2 c member)
  | decimal whole fraction digits decimals =>
      rcases List.mem_append.mp member with inside | rest
      · exact .inl (digits.2 c inside)
      · rcases List.mem_cons.mp rest with rfl | inside
        · exact .inr rfl
        · exact .inl (decimals.2 c inside)

theorem Plain.chars {text : String} (plain : Plain text) :
    ∀ c ∈ text.toList, c.isDigit = true ∨ c = '.' ∨ c = '-' := by
  obtain ⟨negative, unsigned, spelt, shape⟩ := plain
  intro c member
  rw [spelt] at member
  rcases Fixed.mem_signed member with inside | rfl
  · rcases shape.chars c inside with digit | rfl
    · exact .inl digit
    · exact .inr (.inl rfl)
  · exact .inr (.inr rfl)

namespace Fixed

theorem digits_toDigits (n : Nat) : Digits (Nat.toDigits 10 n) := by
  refine ⟨Nat.toDigits_ne_nil, ?_⟩
  intro c member
  exact Nat.isDigit_of_mem_toDigits (by decide) (by decide) member

theorem signed_append (negative : Bool) (left right : List Char) :
    signed negative (left ++ right) = signed negative left ++ right := by
  cases negative <;> rfl

theorem dropEnd_append (c : Char) (left right : List Char) :
    dropEnd c (left ++ right) =
      if dropEnd c right = [] then dropEnd c left else left ++ dropEnd c right := by
  simp only [dropEnd, List.reverse_append, List.dropWhile_append, List.isEmpty_iff,
    List.reverse_eq_nil_iff]
  split
  · rfl
  · rw [List.reverse_append, List.reverse_reverse]

theorem dropEnd_signed {c : Char} (foreign : c.isDigit = false) (negative : Bool)
    {digits : List Char} (sound : Digits digits) :
    dropEnd c (signed negative digits) = signed negative digits := by
  have kept : dropEnd c digits = digits := by
    apply List.rdropWhile_eq_self_iff.mpr
    intro nonempty last
    rw [beq_iff_eq] at last
    have digit := sound.2 _ (List.getLast_mem nonempty)
    rw [last, foreign] at digit
    cases digit
  have split := signed_append negative [] digits
  rw [List.nil_append] at split
  rw [split, dropEnd_append, kept, if_neg sound.1]

/-- Decimals behind a point, which is not written if there are none. -/
def pointed : List Char → List Char
  | [] => []
  | c :: rest => '.' :: c :: rest

theorem unsigned_pointed {whole fraction : List Char} (digits : Digits whole)
    (decimals : ∀ c ∈ fraction, c.isDigit = true) : Unsigned (whole ++ pointed fraction) := by
  cases fraction with
  | nil =>
      rw [pointed, List.append_nil]
      exact .whole whole digits
  | cons c rest => exact .decimal whole (c :: rest) digits ⟨List.cons_ne_nil c rest, decimals⟩

/-- Of the decimals those up to the last that is no zero are left. -/
theorem dropEnd_decimals (negative : Bool) {whole fraction : List Char} (digits : Digits whole)
    (decimals : ∀ c ∈ fraction, c.isDigit = true) :
    dropEnd '.' (dropEnd '0' (signed negative (whole ++ '.' :: fraction))) =
      signed negative (whole ++ pointed (dropEnd '0' fraction)) := by
  have split : whole ++ '.' :: fraction = whole ++ ['.'] ++ fraction := by simp
  have kept : dropEnd '0' (signed negative (whole ++ ['.'])) =
      signed negative (whole ++ ['.']) := by
    rw [signed_append, dropEnd_append]
    rfl
  rw [split, signed_append, dropEnd_append, kept]
  cases left : dropEnd '0' fraction with
  | nil =>
      rw [if_pos rfl, signed_append, dropEnd_append, if_pos (by rfl),
        dropEnd_signed rfl negative digits, pointed, List.append_nil]
  | cons c rest =>
      have sound : Digits (c :: rest) := by
        rw [← left]
        refine ⟨by simp [left], fun d member => decimals d (mem_of_mem_dropEnd member)⟩
      have still : dropEnd '.' (c :: rest) = c :: rest := dropEnd_signed rfl false sound
      rw [if_neg (List.cons_ne_nil c rest), dropEnd_append, still,
        if_neg (List.cons_ne_nil c rest), ← signed_append]
      simp [pointed]

theorem plain_ofRatio (negative : Bool) (num den : Nat) :
    Plain (String.ofList (shorten (ofRatio 2 negative num den))) := by
  rw [shorten, ofRatio, Fixed.digits,
    dropEnd_decimals negative (digits_toDigits _) fun c member => isDigit_of_mem_leftpad member]
  split
  · exact ⟨false, ['0'], rfl, .whole _ (by simp [Digits])⟩
  · refine ⟨negative, _, String.toList_ofList, ?_⟩
    apply unsigned_pointed (digits_toDigits _)
    intro c member
    exact isDigit_of_mem_leftpad (mem_of_mem_dropEnd member)

end Fixed

/-- A number is written as a plain numeral exactly when it is finite. -/
theorem plain_numeralText_iff (value : Float) :
    Plain (numeralText value) ↔ value.isFinite = true := by
  have lettered {text : String} {c : Char} (member : c ∈ text.toList)
      (letter : c.isDigit = false ∧ c ≠ '.' ∧ c ≠ '-') : ¬Plain text := by
    intro plain
    rcases plain.chars c member with digit | point | minus
    · rw [letter.1] at digit
      cases digit
    · exact letter.2.1 point
    · exact letter.2.2 minus
  change Plain (String.ofList (Fixed.shorten (Fixed.ofBinary 2 (Binary64.ofFloat value)))) ↔
    value.toModel.unpack.isFinite = true
  rw [Binary64.ofFloat_eq]
  cases value.toModel.unpack with
  | notANumber => exact iff_of_false (lettered (c := 'N') (by decide) (by decide)) nofun
  | infinity sign =>
      refine iff_of_false (lettered (c := 'n') ?_ (by decide)) nofun
      cases sign <;> decide
  | zero sign => exact iff_of_true (Fixed.plain_ofRatio _ _ _) rfl
  | finite sign mantissa exponent positive =>
      exact iff_of_true (Fixed.plain_ofRatio _ _ _) rfl

end Frond
