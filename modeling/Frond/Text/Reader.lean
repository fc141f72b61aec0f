/-!
Readers: functions that take something off the front of a text and leave the rest, or refuse.
-/

namespace Frond

abbrev Reader := StateT (List Char) Option

namespace Reader

/-- The next character, which stays. -/
def peek? : Reader (Option Char) := fun text => some (text.head?, text)

/-- One character that passes a test. -/
def satisfying (test : Char → Bool) : Reader Char
  | [] => none
  | c :: rest => if test c then some (c, rest) else none

def char (c : Char) : Reader Unit := do
  let _ ← satisfying (· == c)

/-- One text, character for character. -/
def word (w : List Char) : Reader Unit := w.forM char

/-- The longest run of characters that pass a test, which may be empty. -/
def span (test : Char → Bool) : Reader (List Char) := fun text => some (text.span test)

/-- A run of at least one character. -/
def span1 (test : Char → Bool) : Reader (List Char) := do
  let c ← satisfying test
  let rest ← span test
  return c :: rest

/-- As many characters as asked for, each of which passes a test. -/
def exactly (test : Char → Bool) : Nat → Reader (List Char)
  | 0 => pure []
  | n + 1 => do
    let c ← satisfying test
    let rest ← exactly test n
    return c :: rest

/-- What a reader takes from a whole text, with nothing left over. -/
def whole? (read : Reader α) (text : List Char) : Option α :=
  match read text with
  | some (a, []) => some a
  | _ => none

/-- What a reader takes, or nothing where it refuses. -/
def perhaps (read : Reader α) : Reader (Option α) := some <$> read <|> pure none

/-- Reads again and again, until the reader refuses or takes nothing. -/
def many (read : Reader α) (text : List Char) : Option (List α × List Char) :=
  match read text with
  | some (a, rest) =>
    if rest.length < text.length then
      (many read rest).map fun (more, left) => (a :: more, left)
    else some ([], text)
  | none => some ([], text)
termination_by text.length

/-- Takes steps, each of which carries a state on, until one is refused or takes nothing. -/
def iterate (step : σ → Reader σ) (state : σ) (text : List Char) : Option (σ × List Char) :=
  match step state text with
  | some (next, rest) =>
    if rest.length < text.length then iterate step next rest else some (state, text)
  | none => some (state, text)
termination_by text.length

/-- Items with something between them, at least one. -/
def separated (item : Reader α) (between : Reader Unit) : Reader (List α) := do
  let first ← item
  let others ← many (between *> item)
  return first :: others

end Reader

end Frond
