import Frond.Pattern.Basic

/-!
Classes of characters between brackets, which may hold further classes and operators on them.
-/

namespace Frond.Pattern

open Reader

/-- Classes by name, between colons. -/
def classNames : List String :=
  ["alnum", "alpha", "ascii", "blank", "cntrl", "digit", "graph", "lower", "print", "punct",
    "space", "upper", "word", "xdigit"]

namespace Mode

/-- Whether a class may hold a character. -/
def classAdmits (mode : Mode) (c : Char) : Bool :=
  if mode.bytes then c.toNat < 0x80 else !mode.folded

/-- Whether a class may be negated; what is not ASCII is no byte. -/
def negates (mode : Mode) (negated : Bool) : Bool := !(negated && mode.bytes)

end Mode

/-- A character of a class, or nothing for a class by its letter. -/
def classItem (mode : Mode) : Reader (Option Char) := do
  match ← peek? with
  | some '\\' =>
    match ← Escape.read mode with
    | .literal c | .byte c =>
      guard (mode.classAdmits c)
      return some c
    | .letterClass negated =>
      guard (mode.bytes && !negated)
      return none
    | .edge | .wordEdge => failure
  | _ =>
    let c ← anyChar
    guard (mode.classAdmits c)
    return some c

/-- Whether a dash ends or divides a class instead of spanning a range, by what follows it. A
number sign is passed over here, and not what would be its comment. -/
def dashStands (mode : Mode) (rest : List Char) : Bool :=
  let seen := if mode.spaced then rest.filter (!isSpace ·) else rest
  let next := match mode.spaced, seen with
    | true, '#' :: seen => seen.head?
    | _, seen => seen.head?
  next == some ']' || next == some '-'

/-- A character of a class, or all from one to another. -/
def classRange (mode : Mode) : Reader Unit := do
  let first ← classItem mode
  gap mode
  match ← get with
  | '-' :: rest =>
    if dashStands mode rest then return
    char '-'
    gap mode
    match first, ← classItem mode with
    | some low, some high => guard (low.toNat ≤ high.toNat)
    | _, _ => failure
  | _ => return

/-- A caret, which negates a class. -/
def caret : Reader Bool := Option.isSome <$> perhaps (char '^')

/-- A class by its name, and whether it is negated. -/
def namedClass : Reader Bool := do
  word ['[', ':']
  let negated ← caret
  let name ← span (· != ':')
  word [':', ']']
  guard (classNames.contains (String.ofList name))
  return negated

/-- The start of a class, and how many characters it holds already: here dashes, or else a closing
bracket, stand for themselves. -/
def classOpening (mode : Mode) : Reader Nat := do
  char '['
  gap mode
  let negated ← caret
  guard (mode.negates negated)
  gap mode
  let dashes ← many (char '-' *> gap mode)
  if dashes.isEmpty then
    match ← perhaps (char ']' *> gap mode) with
    | some () =>
      guard (mode.classAdmits ']')
      return 1
    | none => return 0
  else
    guard (mode.classAdmits '-')
    return dashes.length

/-- What a class is made of. -/
inductive Element where
  | item (height : Nat)
  | operator

/-- One element of a class, given how to read a class in it. -/
def Element.read (mode : Mode) (inner : Reader Nat) : Reader Element := do
  gap mode
  match ← perhaps namedClass, ← peek? with
  | some negated, _ =>
    guard (mode.negates negated && (mode.bytes || !mode.folded))
    return .item 0
  | none, some '[' => return .item (← inner)
  | none, some ']' | none, none => failure
  | none, some _ =>
    (word ['&', '&'] <|> word ['-', '-'] <|> word ['~', '~']) *> pure .operator <|>
      classRange mode *> pure (.item 0)

/-- How deeply the elements of a class are nested, given the height of what is on the left of the
last operator and those of the items since. -/
def elementsHeight (left : Option Nat) (items : List Nat) : List Element → Nat
  | [] => joined
  | .item height :: rest => elementsHeight left (height :: items) rest
  | .operator :: rest => elementsHeight (some joined) [] rest
where
  joined : Nat :=
    match left with
    | none => together items
    | some height => 1 + max height (together items)

/-- A class with fewer brackets around any part of it than there is room for, and how deeply it
is nested. -/
def classHeight (mode : Mode) : (room : Nat) → Reader Nat
  | 0 => failure
  | room + 1 => do
    let count ← classOpening mode
    let elements ← many (Element.read mode (classHeight mode room))
    gap mode
    char ']'
    return 1 + elementsHeight none (List.replicate count 0) elements

end Frond.Pattern
