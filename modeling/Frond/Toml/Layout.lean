import Frond.Text.Reader

/-!
What may stand between the words of a configuration text: blanks, ends of lines, comments.
-/

namespace Frond.Toml

open Reader

def isBlank (c : Char) : Bool := c == ' ' || c == '\t'

/-- Characters that a comment or a text may hold: no control character but the tab. -/
def isPrintable (c : Char) : Bool := c == '\t' || (' ' ≤ c && c != '\x7f')

def blanks : Reader Unit := do
  let _ ← span isBlank

def newline : Reader Unit := char '\n' <|> word ['\r', '\n']

def comment : Reader Unit := do
  char '#'
  let _ ← span isPrintable

/-- Blanks, comments and ends of lines in any number. -/
def gap : Reader Unit := do
  blanks
  let _ ← many (newline *> blanks <|> comment *> newline *> blanks)

/-- The rest of a line, up to its end. -/
def lineRest : Reader Unit := do
  blanks
  let _ ← perhaps comment

end Frond.Toml
