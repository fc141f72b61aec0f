/-!
Double-precision numbers taken apart into sign, mantissa and exponent, and put together
again from an exact quotient. Behind every rounding is a quotient of integers that is rounded to
the nearest one, and of two equally near to the even one.
-/

namespace Frond

/-- The integer nearest to `num / den`; of two equally near, the even one. -/
def roundHalfEven (num den : Nat) : Nat :=
  let quotient := num / den
  let twice := 2 * (num % den)
  if den < twice ∨ (twice = den ∧ quotient % 2 = 1) then quotient + 1 else quotient

example : roundHalfEven 5 2 = 2 ∧ roundHalfEven 7 2 = 4 ∧ roundHalfEven 8 3 = 3 := by decide

/-- What the bits of a double say. A finite one has the value `mantissa * 2 ^ exponent`. -/
inductive Binary64 where
  | nan
  | infinite (negative : Bool)
  | finite (negative : Bool) (mantissa : Nat) (exponent : Int)
  deriving DecidableEq, Repr

namespace Binary64

/-- The sign of a double is the highest bit of its word. -/
def signBit : Nat := 1 <<< 63

/-- The lowest bits of a word hold the fraction, and the exponent stands above them. -/
def fractionBits : Nat := 52

/-- The fraction does not hold the leading bit of a mantissa, which is one. -/
def leadingBit : Nat := 1 <<< fractionBits

/-- The word of positive infinity: the highest exponent and no fraction. -/
def infinityWord : Nat := 2047 <<< fractionBits

def ofBits (word : Nat) : Binary64 :=
  let negative := decide (signBit ≤ word)
  let field : Nat := (word >>> fractionBits) % 2048
  let fraction : Nat := word % leadingBit
  if field = 2047 then
    if fraction = 0 then infinite negative else nan
  else if field = 0 then finite negative fraction (-1074)
  else finite negative (leadingBit + fraction) ((field : Int) - 1075)

def ofFloat (value : Float) : Binary64 := ofBits value.toBits.toNat

/-- The exponent of the largest power of two that is at most `num / den`, for positive `num`
and `den`. -/
def binaryExponent (num den : Nat) : Int :=
  let guess : Int := (num.log2 : Int) - den.log2
  let below := num <<< (-guess).toNat < den <<< guess.toNat
  if below then guess - 1 else guess

/-- The bits of the double nearest to `num / den`, ties to the even mantissa. The mantissa is
rounded on the grid of its own exponent, or on the finest grid there is; adding it to the
exponent field carries into the next binade, and from the last one into infinity. -/
def nearestBits (num den : Nat) : Nat :=
  if num = 0 then 0
  else
    let grid := max (binaryExponent num den - fractionBits) (-1074)
    let mantissa := roundHalfEven (num <<< (-grid).toNat) (den <<< grid.toNat)
    min ((grid + 1074).toNat <<< fractionBits + mantissa) infinityWord

/-- The double nearest to the quotient with the given sign. -/
def nearest (negative : Bool) (num den : Nat) : Float :=
  Float.ofBits (UInt64.ofNat (nearestBits num den + if negative then signBit else 0))

def infinity (negative : Bool) : Float :=
  Float.ofBits (UInt64.ofNat (infinityWord + if negative then signBit else 0))

def notANumber : Float := Float.ofBits (UInt64.ofNat (infinityWord + leadingBit / 2))

example : nearestBits 1 1 = 0x3ff0000000000000 ∧ nearestBits 1 10 = 0x3fb999999999999a := by decide

example : ofBits 0x3ff8000000000000 = finite false (3 <<< 51) (-52) := by decide

end Binary64

end Frond
