import Frond.Preset.Basic
import Frond.Text.EditDistance
import Frond.Text.Lowercase

/-!
Presets by name. A name is compared without spaces, dashes and underscores and in lower case;
one that fits no preset is answered with the presets whose names for the command line are
close to it.
-/

namespace Frond

def isSeparator (c : Char) : Bool := c == ' ' || c == '-' || c == '_'

/-- The form in which names are compared. -/
def normalize (name : String) : List Char :=
  (name.toList.filter fun c => !isSeparator c).flatMap lowercase

namespace Preset

/-- Whether a normal form is that of the preset's slug or of its display name. -/
def answersTo (preset : Preset) (wanted : List Char) : Bool :=
  normalize preset.slug == wanted || normalize preset.name == wanted

/-- How far a normal form is from the slug. -/
def distance (preset : Preset) (wanted : List Char) : Nat :=
  EditDistance.distance (normalize preset.slug) wanted

/-- A slug farther away than this is not suggested. -/
def maxDistance : Nat := 3

/-- No more slugs than this are suggested. -/
def maxSuggestions : Nat := 3

/-- The slugs near a normal form, the nearest first, equally near ones in the order of the
presets. -/
def suggestions (wanted : List Char) : List String :=
  let near := all.filter fun preset => preset.distance wanted ≤ maxDistance
  let sorted := near.mergeSort fun p q => p.distance wanted ≤ q.distance wanted
  (sorted.take maxSuggestions).map slug

/-- The preset with the given slug or display name. -/
def ofName (name : String) : Except Failure Preset :=
  let wanted := normalize name
  match all.find? (·.answersTo wanted) with
  | some preset => .ok preset
  | none => .error (.unknownPreset name (suggestions wanted))

end Preset

end Frond
