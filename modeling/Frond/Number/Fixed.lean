import Frond.Number.Binary64

/-!
Numbers written with a fixed count of decimals. The digits are those of the exact value,
rounded half to even, and no exponent is ever used. A coordinate is such a text with two
decimals, less the zeros at its end.
-/

namespace Frond

namespace Fixed

/-- The digits of `scaled / 10 ^ places`, with a point before the last `places`. -/
def digits (places scaled : Nat) : List Char :=
  Nat.toDigits 10 (scaled / Nat.pow 10 places) ++
    '.' :: (Nat.toDigits 10 (scaled % Nat.pow 10 places)).leftpad places '0'

def signed (negative : Bool) (text : List Char) : List Char :=
  if negative then '-' :: text else text

/-- The quotient `num / den` with its sign and `places` decimals. -/
def ofRatio (places : Nat) (negative : Bool) (num den : Nat) : List Char :=
  signed negative (digits places (roundHalfEven (num * Nat.pow 10 places) den))

def ofBinary (places : Nat) : Binary64 → List Char
  | .nan => "NaN".toList
  | .infinite negative => signed negative "inf".toList
  | .finite negative mantissa exponent =>
    ofRatio places negative (mantissa <<< exponent.toNat) (1 <<< (-exponent).toNat)

def dropEnd (c : Char) (text : List Char) : List Char :=
  (text.reverse.dropWhile (· == c)).reverse

/-- Removes zeros and then a point from the end; a zero that is left alone has no sign. -/
def shorten (text : List Char) : List Char :=
  let short := dropEnd '.' (dropEnd '0' text)
  if short = ['-', '0'] then ['0'] else short

end Fixed

/-- A number with exactly `places` decimals. -/
def fixed (places : Nat) (value : Float) : String :=
  String.ofList (Fixed.ofBinary places (Binary64.ofFloat value))

/-- Numbers that can be written as a coordinate. -/
class Numeral (α : Type) where
  numeral : α → List Char

export Numeral (numeral)

instance : Numeral Float where
  numeral value := Fixed.shorten (Fixed.ofBinary 2 (Binary64.ofFloat value))

/-- A number of a drawing, with at most two decimals. -/
def numeralText {α : Type} [Numeral α] (value : α) : String := String.ofList (numeral value)

example : String.ofList (Fixed.shorten (Fixed.ofRatio 2 true 5 2)) = "-2.5" := by decide

example : String.ofList (Fixed.shorten (Fixed.ofRatio 2 true 1 1000)) = "0" := by decide

end Frond
