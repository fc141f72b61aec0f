import Frond.Pattern.Class
import Frond.Text.Alphanumeric

/-!
Which texts are regular expressions: sequences of parts with bars between them, where groups hold
further ones. Flags change how the rest of the group around them is understood.
-/

namespace Frond.Pattern

open Reader

/-- A part of a sequence: how deeply it is nested, and whether it can be repeated. -/
structure Part where
  height : Nat := 0
  repeatable : Bool := true

/-- A group as far as it is read. -/
structure Scan where
  mode : Mode := {}
  /-- The names of all groups so far. -/
  names : List String := []
  /-- The heights of the sequences before the last bar. -/
  earlier : List Nat := []
  /-- The parts since the last bar, the last first. -/
  parts : List Part := []

namespace Scan

def add (scan : Scan) (part : Part) : Scan := { scan with parts := part :: scan.parts }

def sequenceHeight (scan : Scan) : Nat := together (scan.parts.map Part.height)

def height (scan : Scan) : Nat := together (scan.sequenceHeight :: scan.earlier)

end Scan

/-- A part that begins with a backslash. -/
def escapedPart (scan : Scan) : Reader Scan := do
  let mode := scan.mode
  match ← Escape.read mode with
  | .literal _ => guard (mode.bytes || !mode.folded)
  | .byte c => guard (if mode.bytes then c.toNat < 0x80 else !mode.folded)
  | .letterClass negated => guard (mode.bytes && !negated)
  | .edge => pure ()
  | .wordEdge => guard mode.bytes
  return scan.add {}

/-- A bar, a repetition or a single character. Counted repetitions are not read. -/
def plainPart (scan : Scan) : Reader Scan := do
  match ← anyChar, scan.parts with
  | '|', _ => return { scan with earlier := scan.sequenceHeight :: scan.earlier, parts := [] }
  | '*', last :: before | '+', last :: before | '?', last :: before =>
    guard last.repeatable
    let _ ← perhaps (char '?')
    return { scan with parts := { height := last.height + 1 } :: before }
  | '*', [] | '+', [] | '?', [] | '\x7b', _ => failure
  | '.', _ =>
    guard !scan.mode.bytes
    return scan.add {}
  | '^', _ | '$', _ => return scan.add {}
  | _, _ =>
    guard (scan.mode.bytes || !scan.mode.folded)
    return scan.add {}

/-- The name of a group. -/
def groupName : Reader String := do
  word ['?', 'P', '<'] <|> word ['?', '<']
  let first ← satisfying fun c => c == '_' || isAlphabetic c
  let rest ← span fun c => c ∈ ['_', '.', '[', ']'] || isAlphanumeric c
  char '>'
  return String.ofList (first :: rest)

/-- Flags, none of which is given twice; the minus sign counts as one, and does not come last. -/
def flags : Reader (List Char) := do
  char '?'
  let flags ← span (['i', 'm', 's', 'U', 'u', 'R', 'x', '-'].contains ·)
  guard (flags.eraseDups.length == flags.length && flags.getLast? != some '-')
  return flags

/-- The rest of a group that is understood in a mode, given how to read what is in it. -/
def groupRest (inside : Scan → Reader Scan) (scan : Scan) (mode : Mode) : Reader Scan := do
  let inner ← inside { mode, names := scan.names }
  gap inner.mode
  char ')'
  return { scan with names := inner.names }.add { height := inner.height + 1 }

/-- A group, or flags between parentheses, which are no part that can be repeated. -/
def group (inside : Scan → Reader Scan) (scan : Scan) : Reader Scan := do
  char '('
  gap scan.mode
  match ← peek? with
  | some '?' =>
    match ← perhaps groupName with
    | some name =>
      guard (!scan.names.contains name)
      groupRest inside { scan with names := name :: scan.names } scan.mode
    | none =>
      let flags ← flags
      let mode := scan.mode.set flags
      match ← anyChar with
      | ':' => groupRest inside scan mode
      | ')' =>
        guard !flags.isEmpty
        return { scan with mode }.add { repeatable := false }
      | _ => failure
  | _ => groupRest inside scan scan.mode

/-- The next part, given how to read what is in a group, and the room for brackets. -/
def nextPart (inside : Scan → Reader Scan) (room : Nat) (scan : Scan) : Reader Scan := do
  gap scan.mode
  match ← peek? with
  | none | some ')' => failure
  | some '(' => group inside scan
  | some '[' => return scan.add { height := ← classHeight scan.mode room }
  | some '\\' => escapedPart scan
  | some _ => plainPart scan

/-- Parts up to the end of a group, with fewer parentheses and brackets around any of them than
there is room for. -/
def allParts : (room : Nat) → Scan → Reader Scan
  | 0 => iterate (nextPart (fun _ => failure) 0)
  | room + 1 => iterate (nextPart (allParts room) (room + 1))

/-- No expression is nested more deeply. -/
def maxHeight : Nat := 250

/-- A whole expression, and how deeply it is nested. -/
def expression : Reader Nat := do
  let scan ← allParts maxHeight {}
  gap scan.mode
  return scan.height

end Frond.Pattern

namespace Frond

/-- Whether a text is a regular expression without counted repetitions. -/
def isPattern (text : List Char) : Bool :=
  match Reader.whole? Pattern.expression text with
  | some height => height ≤ Pattern.maxHeight
  | none => false

end Frond
