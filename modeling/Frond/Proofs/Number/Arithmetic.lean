import Mathlib
import Frond.Proofs.Number.Packing

/-!
Arithmetic on doubles that stays finite. As long as the exact result is not too large, the result of
an operation on finite doubles is finite, and is the exact one rounded.
-/

namespace Frond

open Float.Model (UnpackedFloat)
open Float.Model.UnpackedFloat (Sign)

/-- A double is finite and has a value. -/
def Denotes (number : Float) (x : ℚ) : Prop := Binary64.Denotes number.toModel.unpack x

variable {a b v : Float} {x y : ℚ}

theorem Denotes.isFinite (denotes : Denotes v x) : v.isFinite = true := by
  change v.toModel.unpack.isFinite = true
  rw [Denotes] at denotes
  generalize v.toModel.unpack = unpacked at denotes ⊢
  cases denotes <;> rfl

theorem denotes_of_isFinite (finite : v.isFinite = true) :
    ∃ x, Denotes v x ∧ |x| < 2 ^ (1024 : ℤ) :=
  Binary64.denotes_unpack _ finite

/-- A result that is rounded and not too large is kept when it is put into a word. -/
theorem denotes_pack {result : UnpackedFloat}
    (rounded : ∃ z, Rounds x z ∧ Binary64.Denotes result z)
    (fits : ∀ z, Rounds x z → |z| < 2 ^ (1024 : ℤ)) :
    ∃ z, Rounds x z ∧ Binary64.Denotes (Float.Model.pack result).unpack z := by
  obtain ⟨z, rounds, denotes⟩ := rounded
  refine ⟨z, rounds, ?_⟩
  change Binary64.Denotes (UnpackedFloat.unpack .binary64 (UnpackedFloat.pack .binary64 result)) z
  rw [denotes.unpack_pack (fits z rounds)]
  exact denotes

theorem denotes_add (left : Denotes a x) (right : Denotes b y)
    (fits : ∀ z, Rounds (x + y) z → |z| < 2 ^ (1024 : ℤ)) :
    ∃ z, Rounds (x + y) z ∧ Denotes (a + b) z :=
  denotes_pack (Binary64.denotes_add left right) fits

theorem denotes_sub (left : Denotes a x) (right : Denotes b y)
    (fits : ∀ z, Rounds (x - y) z → |z| < 2 ^ (1024 : ℤ)) :
    ∃ z, Rounds (x - y) z ∧ Denotes (a - b) z :=
  denotes_pack (Binary64.denotes_sub left right) fits

theorem denotes_mul (left : Denotes a x) (right : Denotes b y)
    (fits : ∀ z, Rounds (x * y) z → |z| < 2 ^ (1024 : ℤ)) :
    ∃ z, Rounds (x * y) z ∧ Denotes (a * b) z :=
  denotes_pack (Binary64.denotes_mul left right) fits

/-- A count in 32 bits is a double of at most 2 ^ 32. -/
theorem denotes_toFloat (count : UInt32) : ∃ z, Denotes count.toFloat z ∧ |z| ≤ 2 ^ (32 : ℤ) := by
  have size : |((count.toNat : ℤ) : ℚ) * 2 ^ (0 : ℤ)| ≤ 2 ^ (32 : ℤ) := by
    have most : (count.toNat : ℚ) ≤ 2 ^ 32 := by exact_mod_cast count.toNat_lt.le
    simpa using most
  obtain ⟨z, rounds, denotes⟩ :=
    denotes_pack (Binary64.denotes_normalize count.toNat 0) fun z rounds =>
      rounds.lt_of_le (by norm_num) (by norm_num) size
  exact ⟨z, denotes, rounds.abs_le_of_le (by norm_num) size⟩

namespace Binary64

/-- The order of exponents and then of mantissas is that of the values. -/
theorem mul_two_zpow_le {m n : Nat} {e f : ℤ} (bound : m < 2 ^ 53) (lowest : -1074 ≤ e)
    (filled : f = -1074 ∨ 2 ^ 52 ≤ n)
    (ordered : ((compare e f).then (compare m n)).isLE = true) : (m * 2 ^ e : ℚ) ≤ n * 2 ^ f := by
  rcases lt_trichotomy e f with less | rfl | greater
  · have full : ((2 ^ 52 : Nat) : ℚ) ≤ n := by exact_mod_cast filled.resolve_left (by omega)
    have most : (m : ℚ) ≤ (2 ^ 53 : Nat) := by exact_mod_cast bound.le
    calc (m * 2 ^ e : ℚ) ≤ (2 ^ 53 : Nat) * 2 ^ e :=
          mul_le_mul_of_nonneg_right most (two_zpow_pos e).le
      _ = (2 ^ 52 : Nat) * 2 ^ (e + 1) := by
        rw [zpow_add_one₀ two_ne_zero]
        push_cast
        ring
      _ ≤ (2 ^ 52 : Nat) * 2 ^ f := mul_le_mul_of_nonneg_left (two_zpow_le (by omega)) (by norm_num)
      _ ≤ n * 2 ^ f := mul_le_mul_of_nonneg_right full (two_zpow_pos f).le
  · rw [Int.compare_eq_eq.mpr rfl] at ordered
    have mantissas : m ≤ n := Nat.isLE_compare.mp ordered
    exact mul_le_mul_of_nonneg_right (by exact_mod_cast mantissas) (two_zpow_pos e).le
  · rw [Int.compare_eq_gt.mpr greater] at ordered
    cases ordered

/-- Finite doubles are in the order of their values. -/
theorem le_of_le {left right : UnpackedFloat} (first : Denotes left x) (second : Denotes right y)
    (ordered : left.le right = true) : x ≤ y := by
  have magnitude (m : Nat) (e : ℤ) : (0 : ℚ) ≤ m * 2 ^ e := by positivity
  cases first with
  | zero sign =>
      cases second with
      | zero other => exact le_rfl
      | @finite other n f positive' bound' lowest' filled' =>
          cases other with
          | negative => cases ordered
          | positive => exact magnitude n f
  | @finite sign m e positive bound lowest filled =>
      cases second with
      | zero other =>
          cases sign with
          | negative =>
              have below := magnitude m e
              simp only [Sign.apply]
              push_cast
              linarith
          | positive => cases ordered
      | @finite other n f positive' bound' lowest' filled' =>
          cases sign with
          | negative =>
              have below := magnitude m e
              cases other with
              | negative =>
                  have swapped : ((compare f e).then (compare n m)).isLE = true := by
                    rw [← Int.compare_swap, ← Nat.compare_swap, ← Ordering.swap_then]
                    exact ordered
                  have := mul_two_zpow_le bound' lowest' filled swapped
                  simp only [Sign.apply]
                  push_cast
                  linarith
              | positive =>
                  have above := magnitude n f
                  simp only [Sign.apply]
                  push_cast
                  linarith
          | positive =>
              cases other with
              | negative => cases ordered
              | positive => exact mul_two_zpow_le bound lowest filled' ordered

end Binary64

/-- What lies between two finite doubles is finite. -/
theorem denotes_of_between (lower : Denotes a x) (upper : Denotes b y) (above : a ≤ v)
    (below : v ≤ b) : ∃ z, Denotes v z ∧ x ≤ z ∧ z ≤ y := by
  have first : a.toModel.unpack.le v.toModel.unpack = true := of_decide_eq_true above
  have second : v.toModel.unpack.le b.toModel.unpack = true := of_decide_eq_true below
  have finite : v.isFinite = true := by
    change v.toModel.unpack.isFinite = true
    rw [Denotes] at lower upper
    generalize v.toModel.unpack = middle at first second
    generalize a.toModel.unpack = low at lower first
    generalize b.toModel.unpack = high at upper second
    cases middle with
    | notANumber => cases lower <;> cases first
    | infinity sign =>
        cases sign with
        | negative => cases lower <;> cases first
        | positive => cases upper <;> cases second
    | zero sign => rfl
    | finite sign m e positive => rfl
  obtain ⟨z, denotes, _⟩ := denotes_of_isFinite finite
  exact ⟨z, denotes, Binary64.le_of_le lower denotes first, Binary64.le_of_le denotes upper second⟩

end Frond
