import Frond.Number.Reading

/-!
Dates and times: a date, a time of day, or a date with a time and perhaps its distance from
universal time.
-/

namespace Frond.Toml

/-- A number written in digits alone lies within bounds. -/
def within (low high : Nat) (digits : List Char) : Bool :=
  digits.all Char.isDigit && decide (low ≤ digitsValue digits ∧ digitsValue digits ≤ high)

def isLeapYear (year : Nat) : Bool := year % 4 == 0 && (year % 100 != 0 || year % 400 == 0)

def daysInMonth (year month : Nat) : Nat :=
  if month = 2 then if isLeapYear year then 29 else 28
  else if month ∈ [4, 6, 9, 11] then 30
  else 31

/-- A day of the calendar, as `1979-05-27`. -/
def isDate : List Char → Bool
  | [y₁, y₂, y₃, y₄, '-', m₁, m₂, '-', d₁, d₂] =>
    within 0 9999 [y₁, y₂, y₃, y₄] && within 1 12 [m₁, m₂] &&
      within 1 (daysInMonth (digitsValue [y₁, y₂, y₃, y₄]) (digitsValue [m₁, m₂])) [d₁, d₂]
  | _ => false

/-- What follows the fraction of a second, which may be absent. -/
def afterFraction? : List Char → Option (List Char)
  | '.' :: rest =>
    if (rest.takeWhile Char.isDigit).isEmpty then none else some (rest.dropWhile Char.isDigit)
  | rest => some rest

/-- What follows a time of day, as `07:32:00.5`; a minute may have a leap second. -/
def afterClock? : List Char → Option (List Char)
  | h₁ :: h₂ :: ':' :: m₁ :: m₂ :: ':' :: s₁ :: s₂ :: rest =>
    if within 0 23 [h₁, h₂] && within 0 59 [m₁, m₂] && within 0 60 [s₁, s₂] then
      afterFraction? rest
    else none
  | _ => none

/-- The distance from universal time, which may be absent. -/
def isOffset : List Char → Bool
  | [] | ['Z'] | ['z'] => true
  | [sign, h₁, h₂, ':', m₁, m₂] =>
    (sign == '+' || sign == '-') && within 0 23 [h₁, h₂] && within 0 59 [m₁, m₂]
  | _ => false

/-- The length of a date. -/
def dateLength : Nat := 10

def isMoment (text : List Char) : Bool :=
  afterClock? text == some [] ||
    isDate (text.take dateLength) &&
      match text.drop dateLength with
      | [] => true
      | c :: clock => (c == 'T' || c == 't' || c == ' ') && (afterClock? clock).any isOffset

end Frond.Toml
