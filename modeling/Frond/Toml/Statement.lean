import Frond.Toml.Bare
import Frond.Toml.Table

/-!
Statements of a configuration text, one on a line: an entry of a table, or the header that opens
a table or one more row of a list of tables.
-/

namespace Frond.Toml

open Reader

inductive Statement where
  | entry (key : Key) (value : Value)
  | header (key : Key)
  | rowHeader (key : Key)
  deriving Repr

/-- Keys have fewer parts than this, and values are nested less deeply. -/
def depthLimit : Nat := 80

def isKeyChar (c : Char) : Bool := c.isAlphanum || c == '_' || c == '-'

def name : Reader String := shortText <|> String.ofList <$> span1 isKeyChar

def key : Reader Key := do
  blanks
  let names ← separated (name <* blanks) (char '.' *> blanks)
  match names.getLast? with
  | some last =>
    if names.length < depthLimit then return ⟨names.dropLast, last⟩ else failure
  | none => failure

/-- A key with its value. -/
def pair (value : Reader Value) : Reader (Key × Value) := do
  let key ← key
  char '='
  blanks
  let value ← value
  blanks
  return (key, value)

/-- Values between brackets. A comma may follow the last, if there is one. -/
def list (value : Reader Value) : Reader Value := do
  let comma := char ',' *> gap
  char '['
  gap
  let items ← perhaps (separated (value <* gap) comma <* perhaps comma)
  char ']'
  return .list (items.getD [])

/-- Entries between braces, on one line. -/
def braces (value : Reader Value) : Reader Value := do
  char '\x7b'
  let pairs ← perhaps (separated (pair value) (char ','))
  blanks
  char '\x7d'
  match Value.ofPairs? (pairs.getD []) with
  | some table => return table
  | none => failure

/-- A value with at most this many brackets and braces around any part of it. -/
def value : Nat → Reader Value
  | 0 => Value.text <$> quotedText <|> bare
  | room + 1 =>
    Value.text <$> quotedText <|> bare <|> list (value room) <|> braces (value room)

/-- A key between brackets. -/
def bracketed : Reader Key := char '[' *> key <* char ']'

def statement : Reader Statement :=
  Statement.rowHeader <$> (char '[' *> bracketed <* char ']') <|>
    Statement.header <$> bracketed <|>
    (fun (key, value) => .entry key value) <$> pair (value (depthLimit - 1))

/-- One line, which may be empty. -/
def line : Reader (Option Statement) := do
  blanks
  let found ← perhaps statement
  lineRest
  return found

/-- All lines of a text. A mark of the byte order may stand before the first. -/
def statements : Reader (List Statement) := do
  let _ ← perhaps (char '\uFEFF')
  let lines ← separated line newline
  return lines.filterMap id

end Frond.Toml
