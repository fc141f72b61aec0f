import Mathlib
import Frond.Proofs.Number.HalfEven

/-!
Rounding a mantissa. Two bits of rest beside a mantissa are enough to know on which side of the
middle a value lies, also when it is halved again and again; so the mantissa that is rounded by them
is the whole number nearest to the value.
-/

namespace Frond

namespace Binary64

open Float.Model.UnpackedFloat (ExtendedMantissa)

/-- A value that a mantissa with a round bit and a sticky bit stands for. -/
inductive Spells : ExtendedMantissa → ℚ → Prop
  | exact {m : Nat} {x : ℚ} (same : x = m) : Spells ⟨m, false, false⟩ x
  | low {m : Nat} {x : ℚ} (above : m < x) (below : x < m + 1 / 2) : Spells ⟨m, false, true⟩ x
  | half {m : Nat} {x : ℚ} (same : x = m + 1 / 2) : Spells ⟨m, true, false⟩ x
  | high {m : Nat} {x : ℚ} (above : m + 1 / 2 < x) (below : x < m + 1) : Spells ⟨m, true, true⟩ x

theorem shiftRightOne_even (k : Nat) (round sticky : Bool) :
    ExtendedMantissa.shiftRightOne ⟨2 * k, round, sticky⟩ = ⟨k, false, round || sticky⟩ := by
  simp [ExtendedMantissa.shiftRightOne]

theorem shiftRightOne_odd (k : Nat) (round sticky : Bool) :
    ExtendedMantissa.shiftRightOne ⟨2 * k + 1, round, sticky⟩ = ⟨k, true, round || sticky⟩ := by
  have whole : (2 * k + 1) / 2 = k := by omega
  simp [ExtendedMantissa.shiftRightOne, whole]

namespace Spells

variable {em : ExtendedMantissa} {x : ℚ}

/-- The bit that is shifted out becomes the round bit, and nothing before it is forgotten. -/
theorem shiftRightOne (spells : Spells em x) : Spells em.shiftRightOne (x / 2) := by
  obtain ⟨m, round, sticky⟩ := em
  obtain ⟨k, rfl | rfl⟩ := Nat.even_or_odd' m
  · rw [shiftRightOne_even]
    cases spells with
    | exact same =>
        push_cast at same
        exact .exact (by linarith)
    | low above below =>
        push_cast at above below
        exact .low (by linarith) (by linarith)
    | half same =>
        push_cast at same
        exact .low (by linarith) (by linarith)
    | high above below =>
        push_cast at above below
        exact .low (by linarith) (by linarith)
  · rw [shiftRightOne_odd]
    cases spells with
    | exact same =>
        push_cast at same
        exact .half (by linarith)
    | low above below =>
        push_cast at above below
        exact .high (by linarith) (by linarith)
    | half same =>
        push_cast at same
        exact .high (by linarith) (by linarith)
    | high above below =>
        push_cast at above below
        exact .high (by linarith) (by linarith)

theorem shiftRight (spells : Spells em x) (n : Nat) : Spells (em >>> n) (x / 2 ^ n) := by
  change Spells (n.repeat ExtendedMantissa.shiftRightOne em) _
  induction n with
  | zero => simpa [Nat.repeat] using spells
  | succ n ih =>
      rw [Nat.repeat, pow_succ, div_mul_eq_div_div]
      exact ih.shiftRightOne

theorem nearest (spells : Spells em x) : NearestEven em.roundedMantissa x := by
  cases spells with
  | @exact m x same =>
      change NearestEven m x
      rw [same]
      exact nearestEven_intCast m
  | @low m x above below =>
      change NearestEven m x
      have near : NearestEven m ((m : ℤ) + (x - m)) :=
        nearestEven_add_of_lt (sub_nonneg.mpr above.le) (by linarith)
      rwa [Int.cast_natCast, add_sub_cancel] at near
  | @half m x same =>
      change NearestEven (m + m % 2 : Nat) x
      rw [same]
      apply nearestEven_half (k := m)
      · omega
      · rw [Int.even_iff]
        omega
  | @high m x above below =>
      change NearestEven (m + 1) x
      have near : NearestEven (m + 1) ((m : ℤ) + (x - m)) :=
        nearestEven_add_of_gt (by linarith) (by linarith)
      rwa [Int.cast_natCast, add_sub_cancel] at near

end Spells

end Binary64

end Frond
