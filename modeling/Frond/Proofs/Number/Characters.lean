import Frond.Number.Fixed

/-!
The characters of a written number: digits, a sign, a point, and the letters of the numbers that
have no digits. No character with a meaning to a reader of paths or of markup is among them.
-/

namespace Frond

def isNumeralChar (c : Char) : Bool := c.isDigit || "-.NaNinf".toList.contains c

namespace Fixed

theorem mem_of_mem_dropEnd {c d : Char} {text : List Char} (member : c ∈ dropEnd d text) :
    c ∈ text := by
  have kept := (List.dropWhile_suffix (· == d)).subset (List.mem_reverse.mp member)
  exact List.mem_reverse.mp kept

theorem mem_of_mem_shorten {c : Char} {text : List Char} (member : c ∈ shorten text) :
    c ∈ text ∨ c = '0' := by
  simp only [shorten] at member
  split at member
  · exact .inr (List.mem_singleton.mp member)
  · exact .inl (mem_of_mem_dropEnd (mem_of_mem_dropEnd member))

theorem mem_digits {c : Char} {places scaled : Nat} (member : c ∈ digits places scaled) :
    c.isDigit = true ∨ c = '.' := by
  have digit {n : Nat} (inside : c ∈ Nat.toDigits 10 n) : c.isDigit = true :=
    Nat.isDigit_of_mem_toDigits (by decide) (by decide) inside
  simp only [digits, List.leftpad, List.mem_append, List.mem_cons, List.mem_replicate] at member
  rcases member with whole | rfl | ⟨_, rfl⟩ | fraction
  · exact .inl (digit whole)
  · exact .inr rfl
  · exact .inl rfl
  · exact .inl (digit fraction)

theorem mem_signed {c : Char} {negative : Bool} {text : List Char}
    (member : c ∈ signed negative text) : c ∈ text ∨ c = '-' := by
  cases negative with
  | false => exact .inl member
  | true => exact (List.mem_cons.mp member).symm

theorem ofBinary_chars (places : Nat) (value : Binary64) :
    ∀ c ∈ ofBinary places value, isNumeralChar c = true := by
  intro c member
  cases value with
  | nan =>
      have letters : "NaN".toList.all isNumeralChar = true := by decide
      exact List.all_eq_true.mp letters c member
  | infinite negative =>
      have letters : "inf".toList.all isNumeralChar = true := by decide
      rcases mem_signed member with letter | rfl
      · exact List.all_eq_true.mp letters c letter
      · rfl
  | finite negative mantissa exponent =>
      rcases mem_signed member with digit | rfl
      · rcases mem_digits digit with digit | rfl
        · simp only [isNumeralChar, digit, Bool.true_or]
        · rfl
      · rfl

end Fixed

theorem numeral_chars (value : Float) : ∀ c ∈ numeral value, isNumeralChar c = true := by
  intro c member
  rcases Fixed.mem_of_mem_shorten member with written | rfl
  · exact Fixed.ofBinary_chars 2 _ c written
  · rfl

theorem not_mem_numeral {c : Char} (foreign : isNumeralChar c = false) (value : Float) :
    c ∉ numeral value := by
  intro member
  rw [numeral_chars value c member] at foreign
  cases foreign

end Frond
