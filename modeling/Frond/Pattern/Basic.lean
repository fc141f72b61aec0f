import Frond.Text.Characters
import Frond.Text.Reader

/-!
Regular expressions, as far as it matters whether a text is one. Of each part it is kept how
deeply it is nested. There are no tables of Unicode's classes and cases: what needs them, such as
`\d` or letters in either case, is only understood where an expression is confined to ASCII.
-/

namespace Frond.Pattern

open Reader

/-- How the characters of an expression are understood. -/
structure Mode where
  /-- In either case. -/
  folded : Bool := false
  /-- As single bytes, those of ASCII. -/
  bytes : Bool := false
  /-- With blanks and comments between the parts. -/
  spaced : Bool := false

/-- The mode after flags, of which those behind a minus sign are switched off. -/
def Mode.set (mode : Mode) (flags : List Char) : Mode :=
  let on := flags.takeWhile (· != '-')
  let choose (flag : Char) (current : Bool) : Bool :=
    if flags.contains flag then on.contains flag else current
  { folded := choose 'i' mode.folded
    bytes := !choose 'u' !mode.bytes
    spaced := choose 'x' mode.spaced }

/-- The text behind blanks and comments. A comment goes from a number sign to the end of its
line. -/
def afterGap (inComment : Bool) : List Char → List Char
  | [] => []
  | c :: rest =>
    if inComment then afterGap (c != '\n') rest
    else if c == '#' then afterGap true rest
    else if isSpace c then afterGap false rest
    else c :: rest

/-- Passes over blanks and comments where they mean nothing. -/
def gap (mode : Mode) : Reader Unit := fun text =>
  some ((), if mode.spaced then afterGap false text else text)

def anyChar : Reader Char := satisfying fun _ => true

/-- How deeply parts are nested that stand side by side. A part that stands alone is not put
into another one. -/
def together : List Nat → Nat
  | [] => 0
  | [height] => height
  | heights => 1 + heights.foldl max 0

/-- Hexadecimal digits with gaps before them. -/
def hexDigits (mode : Mode) : Nat → Reader (List Char)
  | 0 => return []
  | count + 1 => do
    gap mode
    let digit ← satisfying isHexDigit
    let rest ← hexDigits mode count
    return digit :: rest

/-- A character by its number. -/
def numbered (mode : Mode) (count : Nat) : Reader Char := do
  let code := hexValue (← hexDigits mode count)
  if code.isValidChar then return Char.ofNat code else failure

/-- Control characters that have a letter. -/
def controls : List (Char × Char) :=
  [('a', '\x07'), ('f', '\x0c'), ('n', '\n'), ('r', '\r'), ('t', '\t'), ('v', '\x0b')]

/-- What follows a backslash. -/
inductive Escape where
  | literal (c : Char)
  /-- A character by a number of two digits, which may be meant for a byte. -/
  | byte (c : Char)
  /-- A class by its letter. -/
  | letterClass (negated : Bool)
  /-- The start or the end of the text. -/
  | edge
  /-- A place next to a word. -/
  | wordEdge

def Escape.read (mode : Mode) : Reader Escape := do
  char '\\'
  let letter ← anyChar
  match controls.lookup letter, letter with
  | some c, _ => return .literal c
  | none, 'x' => return .byte (← numbered mode 2)
  | none, 'u' => return .literal (← numbered mode 4)
  | none, 'U' => return .literal (← numbered mode 8)
  | none, 'd' | none, 's' | none, 'w' => return .letterClass false
  | none, 'D' | none, 'S' | none, 'W' => return .letterClass true
  | none, 'A' | none, 'z' => return .edge
  | none, 'b' | none, 'B' | none, '<' | none, '>' => return .wordEdge
  | none, c => if c.toNat < 0x80 && !c.isAlphanum then return .literal c else failure

end Frond.Pattern
