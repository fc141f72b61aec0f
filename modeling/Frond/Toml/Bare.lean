import Frond.Toml.Moment
import Frond.Toml.Quoted
import Frond.Toml.Value

/-!
Values that are written without quotes or brackets: numbers, truth values, dates and times.
Such a value is the longest run of characters that any of them may contain, and is judged as a
whole.
-/

namespace Frond.Toml

open Reader

/-- Digits, less the underscores between them. -/
def grouped? (isDigit : Char → Bool) (text : List Char) : Option (List Char) :=
  let groups := text.splitOn '_'
  if groups.all fun group => !group.isEmpty && group.all isDigit then some groups.flatten else none

/-- Decimal digits that do not start with a zero, unless it is the only one. -/
def decimal? (text : List Char) : Option (List Char) :=
  (grouped? Char.isDigit text).filter fun digits => digits == ['0'] || digits.head? != some '0'

/-- The value of digits in the base that a letter after a zero announces. -/
def based? (letter : Char) (digits : List Char) : Option Nat :=
  match letter with
  | 'x' => (grouped? isHexDigit digits).map hexValue
  | 'o' => (grouped? (fun c => '0' ≤ c && c ≤ '7') digits).map (Nat.ofDigitChars 8 · 0)
  | 'b' => (grouped? (fun c => c == '0' || c == '1') digits).map (Nat.ofDigitChars 2 · 0)
  | _ => none

def integer? (text : List Char) : Option Int :=
  let value : Option Int := match text with
    | '0' :: letter :: digits => (based? letter digits).map Int.ofNat
    | _ =>
      let (negative, digits) := splitSign text
      (decimal? digits).map fun digits =>
        if negative then -(digitsValue digits : Int) else digitsValue digits
  value.filter fun n => lowestInteger ≤ n && n ≤ highestInteger

/-- The digits after a decimal point; without a point there are none. -/
def fraction? : List Char → Option (List Char)
  | [] => some []
  | '.' :: digits => grouped? Char.isDigit digits
  | _ => none

/-- The exponent after the letter `e`; without the letter it is zero. -/
def exponent? : List Char → Option Int
  | [] => some 0
  | _ :: text =>
    let (negative, digits) := splitSign text
    (grouped? Char.isDigit digits).map fun digits =>
      if negative then -(digitsValue digits : Int) else digitsValue digits

/-- A number with a fraction, an exponent or both. What lies beyond the largest double is
refused above zero and infinite below it. -/
def decimalFloat? (negative : Bool) (text : List Char) : Option Float := do
  let (mantissa, power) := text.span fun c => c != 'e' && c != 'E'
  let (whole, part) := mantissa.span (· != '.')
  if part.isEmpty && power.isEmpty then failure
  let whole ← decimal? whole
  let part ← fraction? part
  let power ← exponent? power
  let value := Decimal.toFloat negative (digitsValue (whole ++ part)) (power - part.length)
  if value == Binary64.infinity false then failure
  return value

def float? (text : List Char) : Option Float :=
  let (negative, rest) := splitSign text
  match rest with
  | ['i', 'n', 'f'] => some (Binary64.infinity negative)
  | ['n', 'a', 'n'] => some Binary64.notANumber
  | _ => decimalFloat? negative rest

def boolean? : List Char → Option Bool
  | ['t', 'r', 'u', 'e'] => some true
  | ['f', 'a', 'l', 's', 'e'] => some false
  | _ => none

/-- The value that a bare text stands for. -/
def Value.ofBare? (text : List Char) : Option Value :=
  if isMoment text then some .moment
  else
    Value.integer <$> integer? text <|> Value.float <$> float? text <|>
      Value.boolean <$> boolean? text

def isBare (c : Char) : Bool :=
  c.isAlphanum || c == '+' || c == '-' || c == '_' || c == '.' || c == ':'

/-- A bare text. A blank may stand between a date and its time. -/
def bareText : Reader (List Char) := do
  let text ← span1 isBare
  if isDate text then
    let clock ← perhaps (char ' ' *> span1 isBare)
    return text ++ (clock.map (' ' :: ·)).getD []
  return text

def bare : Reader Value := do
  match Value.ofBare? (← bareText) with
  | some value => return value
  | none => failure

end Frond.Toml
