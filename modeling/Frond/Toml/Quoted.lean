import Frond.Text.Characters
import Frond.Toml.Layout

/-!
Texts between quotes. Between double quotes a backslash starts an escape; between single quotes
every character stands for itself. Three quotes enclose a text of several lines.
-/

namespace Frond.Toml

open Reader

/-- A text of several lines closes with three quotes and may end in at most two of its own. -/
def closingQuotes : Nat := 3

def mostQuotes : Nat := 5

/-- A character by its number, in as many hexadecimal digits as asked for. -/
def numbered (count : Nat) : Reader Char := do
  let digits ← exactly isHexDigit count
  let n := hexValue digits
  if h : n.isValidChar then return Char.ofNatAux n h else failure

/-- The character that an escape stands for, after its backslash. -/
def escapeCode : Reader Char := do
  match ← satisfying fun _ => true with
  | 'b' => return '\x08'
  | 't' => return '\t'
  | 'n' => return '\n'
  | 'f' => return '\x0c'
  | 'r' => return '\r'
  | '"' => return '"'
  | '\\' => return '\\'
  | 'u' => numbered 4
  | 'U' => numbered 8
  | _ => failure

def escaped : Reader (List Char) := do
  char '\\'
  return [← escapeCode]

/-- A backslash at the end of a line: it stands for nothing, and so do the blanks and ends of
lines that follow. -/
def joinedLines : Reader (List Char) := do
  char '\\'
  blanks
  newline
  let _ ← many (newline <|> span1 isBlank *> pure ())
  return []

def lineEnd : Reader (List Char) := newline *> pure ['\n']

/-- One or two quotes inside a text of several lines. -/
def innerQuotes (quote : Char) : Reader (List Char) := do
  let quotes ← span1 (· == quote)
  if quotes.length < closingQuotes then return quotes else failure

/-- The quotes that close a text of several lines, less the three that are not part of it. -/
def lastQuotes (quote : Char) : Reader (List Char) := do
  word (List.replicate closingQuotes quote)
  let more ← span (· == quote)
  if closingQuotes + more.length ≤ mostQuotes then return more else failure

/-- What double quotes enclose on one line. -/
def isPlain (c : Char) : Bool := isPrintable c && c != '"' && c != '\\'

/-- What single quotes enclose on one line. -/
def isLiteral (c : Char) : Bool := isPrintable c && c != '\''

/-- A text on one line. -/
def short (quote : Char) (piece : Reader (List Char)) : Reader String := do
  char quote
  let pieces ← many piece
  char quote
  return String.ofList pieces.flatten

/-- A text of several lines; an end of line right after the opening quotes is dropped. -/
def long (quote : Char) (piece : Reader (List Char)) : Reader String := do
  word (List.replicate closingQuotes quote)
  let _ ← perhaps newline
  let pieces ← many (piece <|> lineEnd <|> innerQuotes quote)
  let last ← lastQuotes quote
  return String.ofList (pieces.flatten ++ last)

def shortPlain : Reader String := short '"' (span1 isPlain <|> escaped)

def shortLiteral : Reader String := short '\'' (span1 isLiteral)

def longPlain : Reader String := long '"' (span1 isPlain <|> escaped <|> joinedLines)

def longLiteral : Reader String := long '\'' (span1 isLiteral)

/-- A text that may stand for a key. -/
def shortText : Reader String := shortPlain <|> shortLiteral

def quotedText : Reader String := longPlain <|> longLiteral <|> shortText

end Frond.Toml
