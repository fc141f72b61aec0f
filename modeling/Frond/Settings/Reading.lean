import Frond.Settings.Choices
import Frond.Toml.Document

/-!
Choices read from a configuration text. The text has two tables, `drawing` and `colors`, and
every name in them is known; a list may stand for a table and then gives every field in order.
-/

namespace Frond

namespace Toml

namespace Value

def text? : Value → Option String
  | .text content => some content
  | _ => none

/-- An integer of 32 bits. -/
def count? : Value → Option UInt32
  | .integer n => if 0 ≤ n ∧ n < UInt32.size then some (UInt32.ofNat n.toNat) else none
  | _ => none

/-- A number; an integer counts as the nearest one. -/
def number? : Value → Option Float
  | .float x => some x
  | .integer n => some (Binary64.nearest (n < 0) n.natAbs 1)
  | _ => none

/-- The first two numbers of a list; what follows them does not matter. -/
def point? : Value → Option (Point Float)
  | .list (x :: y :: _) => do return ⟨← x.number?, ← y.number?⟩
  | _ => none

/-- The values of a record's fields, in the order of their names. A table may leave fields out
but has no others; a list has them all, and what follows them does not matter. -/
def fields? (names : List String) : Value → Option (List (Option Value))
  | .table _ entries =>
    if entries.all fun entry => names.contains entry.1 then
      some (names.map fun name => entries.lookup name)
    else none
  | .list items => positional items
  | .rows tables => positional (tables.map (.table .opened))
  | _ => none
where
  positional (items : List Value) : Option (List (Option Value)) :=
    if names.length ≤ items.length then some ((items.take names.length).map some) else none

end Value

end Toml

namespace Choices

/-- The choices of the table `drawing`. -/
def addDrawing (choices : Choices) (value : Toml.Value) : Option Choices := do
  match ← value.fields? ["step_length", "iterations", "start"] with
  | [stepLength, iterations, start] =>
    return { choices with
      stepLength := ← stepLength.mapM Toml.Value.count?
      iterations := ← iterations.mapM Toml.Value.count?
      start := ← start.mapM Toml.Value.point? }
  | _ => none

/-- The choices of the table `colors`. -/
def addColours (choices : Choices) (value : Toml.Value) : Option Choices := do
  match ← value.fields? ["background", "line"] with
  | [background, line] =>
    return { choices with
      background := ← background.mapM Toml.Value.text?
      line := ← line.mapM Toml.Value.text? }
  | _ => none

def ofEntries? (entries : Toml.Entries) : Option Choices := do
  match ← (Toml.Value.table .opened entries).fields? ["drawing", "colors"] with
  | [drawing, colours] =>
    let choices ← (drawing.map (addDrawing {})).getD (some {})
    (colours.map choices.addColours).getD (some choices)
  | _ => none

/-- The choices that a configuration text makes. -/
def read? (text : String) : Option Choices := (Toml.read? text).bind ofEntries?

end Choices

/-- The settings that a configuration text makes. -/
def Settings.ofText (text : String) : Except SettingsError Settings :=
  match Choices.read? text with
  | some choices => choices.settings
  | none => .error .malformed

end Frond
