import Mathlib
import Frond.Geometry.Box

/-!
Where numbers stop being finite. What is not finite stays so when anything is added to it or taken
from it, and of two numbers the lesser and the greater one is always one of the two.
-/

namespace Frond

open Float.Model (UnpackedFloat)

namespace Binary64

theorem not_isFinite_pack {value : UnpackedFloat} (unbounded : value.isFinite = false) :
    (Float.Model.pack value).isFinite = false := by
  change (UnpackedFloat.unpack .binary64 (UnpackedFloat.pack .binary64 value)).isFinite = false
  cases value with
  | notANumber => rw [UnpackedFloat.pack, UnpackedFloat.unpack_packedNaN]; rfl
  | infinity sign =>
      simp [UnpackedFloat.pack, UnpackedFloat.packedInfinity, UnpackedFloat.unpack,
        UnpackedFloat.isFinite]
  | zero sign => cases unbounded
  | finite sign mantissa exponent positive => cases unbounded

theorem not_isFinite_unpacked_add {a b : UnpackedFloat} (unbounded : a.isFinite = false) :
    (UnpackedFloat.add .binary64 a b).isFinite = false := by
  cases a with
  | notANumber => cases b <;> rfl
  | infinity sign =>
      cases b with
      | infinity other => cases sign <;> cases other <;> rfl
      | _ => rfl
  | zero sign => cases unbounded
  | finite sign mantissa exponent positive => cases unbounded

theorem not_isFinite_unpacked_sub {a b : UnpackedFloat} (unbounded : a.isFinite = false) :
    (UnpackedFloat.sub .binary64 a b).isFinite = false := by
  cases a with
  | notANumber => cases b <;> rfl
  | infinity sign =>
      cases b with
      | infinity other => cases sign <;> cases other <;> rfl
      | _ => rfl
  | zero sign => cases unbounded
  | finite sign mantissa exponent positive => cases unbounded

end Binary64

variable {a b : Float}

theorem not_isFinite_add (unbounded : a.isFinite = false) : (a + b).isFinite = false :=
  Binary64.not_isFinite_pack (Binary64.not_isFinite_unpacked_add unbounded)

theorem not_isFinite_sub (unbounded : a.isFinite = false) : (a - b).isFinite = false :=
  Binary64.not_isFinite_pack (Binary64.not_isFinite_unpacked_sub unbounded)

theorem least_eq_or (a b : Float) : Extremes.least a b = a ∨ Extremes.least a b = b := by
  change (if a.isNaN || b ≤ a then b else a) = a ∨ (if a.isNaN || b ≤ a then b else a) = b
  split
  · exact .inr rfl
  · exact .inl rfl

theorem greatest_eq_or (a b : Float) :
    Extremes.greatest a b = a ∨ Extremes.greatest a b = b := by
  change (if a.isNaN || a ≤ b then b else a) = a ∨ (if a.isNaN || a ≤ b then b else a) = b
  split
  · exact .inr rfl
  · exact .inl rfl

end Frond
