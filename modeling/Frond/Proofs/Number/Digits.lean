import Mathlib

/-!
Rows of decimal digits: the numbers they spell, those of a number with zeros in front of them, and
the digits of a number, which have no zero in front.
-/

namespace Frond

theorem toNat_of_isDigit {c : Char} (digit : c.isDigit = true) :
    48 ≤ c.toNat ∧ c.toNat < 58 := by
  simp only [Char.isDigit, Bool.and_eq_true, decide_eq_true_eq] at digit
  exact ⟨digit.1, Nat.lt_succ_of_le digit.2⟩

/-- A row of digits spells less than the power of ten that has one digit more. -/
theorem ofDigitChars_lt_pow {digits : List Char} (sound : ∀ c ∈ digits, c.isDigit = true) :
    Nat.ofDigitChars 10 digits 0 < 10 ^ digits.length := by
  induction digits with
  | nil => decide
  | cons c rest ih =>
      have digit := (toNat_of_isDigit (sound c List.mem_cons_self)).2
      have tail := ih fun d member => sound d (List.mem_cons_of_mem c member)
      have front : c.toNat - 48 + 1 ≤ 10 := by omega
      rw [Nat.ofDigitChars_cons, Nat.ofDigitChars_eq_ofDigitChars_zero, List.length_cons]
      calc 10 ^ rest.length * (10 * 0 + (c.toNat - 48)) + Nat.ofDigitChars 10 rest 0
          < 10 ^ rest.length * (10 * 0 + (c.toNat - 48)) + 10 ^ rest.length :=
            Nat.add_lt_add_left tail _
        _ = 10 ^ rest.length * (c.toNat - 48 + 1) := by ring
        _ ≤ 10 ^ rest.length * 10 := Nat.mul_le_mul_left _ front
        _ = 10 ^ (rest.length + 1) := (pow_succ 10 rest.length).symm

section

variable {places n : Nat}

theorem isDigit_of_mem_leftpad {c : Char} (member : c ∈ (Nat.toDigits 10 n).leftpad places '0') :
    c.isDigit = true := by
  rcases List.mem_append.mp member with padding | inside
  · rw [(List.mem_replicate.mp padding).2]
    rfl
  · exact Nat.isDigit_of_mem_toDigits (by decide) (by decide) inside

theorem ofDigitChars_leftpad :
    Nat.ofDigitChars 10 ((Nat.toDigits 10 n).leftpad places '0') 0 = n := by
  rw [List.leftpad, Nat.ofDigitChars_append, Nat.ofDigitChars_replicate_zero, Nat.mul_zero,
    Nat.ofDigitChars_ten_toDigits]

theorem length_leftpad_toDigits (positive : 0 < places) (small : n < 10 ^ places) :
    ((Nat.toDigits 10 n).leftpad places '0').length = places := by
  rw [List.length_leftpad]
  exact max_eq_left ((Nat.length_toDigits_le_iff (by decide) positive).mpr small)

end

/-- Only zero is written with a zero in front. -/
theorem toDigits_of_head?_zero {n : Nat} (zero : (Nat.toDigits 10 n).head? = some '0') :
    Nat.toDigits 10 n = ['0'] := by
  induction n using Nat.strongRecOn with
  | ind n ih =>
      rw [Nat.toDigits_eq_if (by decide)] at zero ⊢
      split at zero
      case isTrue small =>
        rw [if_pos small]
        exact congrArg (· :: []) (Option.some_inj.mp zero)
      case isFalse large =>
        have above : n / 10 < n := Nat.div_lt_self (by omega) (by decide)
        rw [List.head?_append_of_ne_nil _ Nat.toDigits_ne_nil] at zero
        have none : n / 10 = 0 := by
          have value := congrArg (Nat.ofDigitChars 10 · 0) (ih _ above zero)
          rw [Nat.ofDigitChars_ten_toDigits] at value
          exact value
        omega

end Frond
