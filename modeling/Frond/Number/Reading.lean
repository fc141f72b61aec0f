import Frond.Number.Binary64

/-!
Numbers read from text: decimal numerals as the nearest double, and integers of a bounded
range.
-/

namespace Frond

/-- Why a text is not a floating-point number. -/
inductive FloatError where
  | empty
  | malformed
  deriving DecidableEq, Repr

def FloatError.message : FloatError → String
  | empty => "cannot parse float from empty string"
  | malformed => "invalid float literal"

/-- Why a text is not an integer of the range asked for. -/
inductive IntegerError where
  | empty
  | malformed
  | tooLarge
  | tooSmall
  deriving DecidableEq, Repr

def IntegerError.message : IntegerError → String
  | empty => "cannot parse integer from empty string"
  | malformed => "invalid digit found in string"
  | tooLarge => "number too large to fit in target type"
  | tooSmall => "number too small to fit in target type"

/-- A sign at the front, and what follows it. -/
def splitSign : List Char → Bool × List Char
  | '-' :: rest => (true, rest)
  | '+' :: rest => (false, rest)
  | rest => (false, rest)

def digitValue (c : Char) : Nat := c.toNat - '0'.toNat

def digitsValue (digits : List Char) : Nat :=
  digits.foldl (fun total c => 10 * total + digitValue c) 0

namespace Decimal

/-- The double nearest to `mantissa * 10 ^ exponent`. Far outside the range of a double the
answer is known from the count of digits, and no power is built. -/
def toFloat (negative : Bool) (mantissa : Nat) (exponent : Int) : Float :=
  let magnitude := exponent + (Nat.toDigits 10 mantissa).length
  if mantissa = 0 ∨ magnitude < -330 then Binary64.nearest negative 0 1
  else if 310 < magnitude then Binary64.infinity negative
  else Binary64.nearest negative (mantissa * Nat.pow 10 exponent.toNat)
    (Nat.pow 10 (-exponent).toNat)

/-- The exponent that a numeral ends in: nothing, or `e`, an optional sign and digits. -/
def exponent? : List Char → Option Int
  | [] => some 0
  | c :: rest =>
    let (negative, digits) := splitSign rest
    if (c == 'e' || c == 'E') && !digits.isEmpty && digits.all Char.isDigit then
      some (if negative then -(digitsValue digits : Int) else digitsValue digits)
    else none

/-- An unsigned numeral: digits with an optional point before, among or after them, and an
optional exponent. -/
def unsigned? (negative : Bool) (text : List Char) : Option Float :=
  let whole := text.takeWhile Char.isDigit
  let rest := text.dropWhile Char.isDigit
  let (fraction, tail) := match rest with
    | '.' :: after => (after.takeWhile Char.isDigit, after.dropWhile Char.isDigit)
    | _ => ([], rest)
  if whole.isEmpty && fraction.isEmpty then none
  else (exponent? tail).map fun exponent =>
    toFloat negative (digitsValue (whole ++ fraction)) (exponent - fraction.length)

/-- The names of numbers that have no digits, in any mixture of cases. -/
def named? (negative : Bool) (text : List Char) : Option Float :=
  match String.ofList (text.map Char.toLower) with
  | "inf" | "infinity" => some (Binary64.infinity negative)
  | "nan" => some Binary64.notANumber
  | _ => none

end Decimal

/-- The number a text spells, with nothing before or after it. -/
def readFloat (text : String) : Except FloatError Float :=
  if text.isEmpty then .error .empty
  else
    let (negative, rest) := splitSign text.toList
    match Decimal.named? negative rest <|> Decimal.unsigned? negative rest with
    | some value => .ok value
    | none => .error .malformed

/-- Appends digits to an integer, away from zero, and stops at the first that is none or that
leaves the range. -/
def appendDigits (low high : Int) (negative : Bool) : Int → List Char → Except IntegerError Int
  | total, [] => .ok total
  | total, c :: rest =>
    if !c.isDigit then .error .malformed
    else
      let next := if negative then 10 * total - digitValue c else 10 * total + digitValue c
      if high < next then .error .tooLarge
      else if next < low then .error .tooSmall
      else appendDigits low high negative next rest

/-- The bounds of integers that are kept in 64 bits. -/
def lowestInteger : Int := Int64.minValue.toInt

def highestInteger : Int := Int64.maxValue.toInt

/-- The integer a text spells, if it is at least `low` and at most `high`. -/
def readInteger (low high : Int) (text : String) : Except IntegerError Int :=
  if text.isEmpty then .error .empty
  else
    let (negative, digits) := splitSign text.toList
    if digits.isEmpty then .error .malformed else appendDigits low high negative 0 digits

end Frond
