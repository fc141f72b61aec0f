import Frond.Number.Binary64

/-!
The length of the hypotenuse over two doubles, rounded once. The squares are added as
integers, so nothing overflows on the way, and an infinite side makes the answer infinite
whatever the other one is.
-/

namespace Frond

/-- The largest number whose square is at most `n`, found two bits of `n` at a time. -/
def floorSqrt (n : Nat) : Nat :=
  if n < 2 then n
  else
    let root := 2 * floorSqrt (n / 4)
    if (root + 1) * (root + 1) ≤ n then root + 1 else root

namespace Binary64

/-- The double nearest to `√square * 2 ^ exponent`. The root is taken with 66 further bits and
one bit below them that says whether anything was cut off, so no tie is decided wrongly. -/
def nearestRoot (square : Nat) (exponent : Int) : Float :=
  let scaled := square <<< 132
  let root := floorSqrt scaled
  let marked := if root * root = scaled then 2 * root else 2 * root + 1
  let power := exponent - 67
  nearest false (marked <<< power.toNat) (1 <<< (-power).toNat)

def hypotenuse : Binary64 → Binary64 → Float
  | infinite _, _ => infinity false
  | _, infinite _ => infinity false
  | nan, _ => notANumber
  | _, nan => notANumber
  | finite _ m e, finite _ n f =>
    let common := min e f
    let p := m <<< (e - common).toNat
    let q := n <<< (f - common).toNat
    nearestRoot (p * p + q * q) common

end Binary64

/-- The hypotenuse over the sides `a` and `b`. -/
def hypotenuse (a b : Float) : Float :=
  (Binary64.ofFloat a).hypotenuse (Binary64.ofFloat b)

end Frond
