import Frond.Settings
import Frond.Text.Characters

/-!
Choices that override settings, and why some are refused. A choice that is not made leaves the
setting as it is.
-/

namespace Frond

/-- Why a configuration was refused. -/
inductive SettingsError where
  /-- The text cannot be had. -/
  | unreadable (reason : String)
  /-- The text is not a configuration. -/
  | malformed
  | badColour (key value : String)
  | shortStep (requested : UInt32)
  deriving DecidableEq, Repr

def SettingsError.message : SettingsError → String
  | unreadable reason => "Failed to read config file: " ++ reason
  | malformed => "Failed to parse config TOML: "
  | badColour key value =>
    "Invalid colour for '" ++ key ++ "': " ++ value ++ " (expected #rgb or #rrggbb)"
  | shortStep requested => "Step length must be at least 1, got " ++ toString requested.toNat

structure Choices where
  stepLength : Option UInt32 := none
  iterations : Option UInt32 := none
  start : Option (Point Float) := none
  background : Option String := none
  line : Option String := none
  deriving BEq, Repr

def Settings.override (settings : Settings) (choices : Choices) : Settings where
  stepLength := choices.stepLength.getD settings.stepLength
  iterations := choices.iterations.getD settings.iterations
  start := choices.start.getD settings.start
  palette :=
    { background := choices.background.getD settings.palette.background
      line := choices.line.getD settings.palette.line }

/-- A colour as `#rgb` or `#rrggbb`. -/
def isColour (text : String) : Bool :=
  match text.toList with
  | '#' :: digits => (digits.length == 3 || digits.length == 6) && digits.all isHexDigit
  | _ => false

namespace Choices

/-- The first choice that is out of bounds: the length of the step, then the colour of the
background, then that of the line. -/
def problem? (choices : Choices) : Option SettingsError :=
  let colour (key : String) (chosen : Option String) : Option SettingsError :=
    (chosen.filter (!isColour ·)).map (.badColour key ·)
  (choices.stepLength.filter (· == 0)).map .shortStep <|>
    colour "background" choices.background <|> colour "line" choices.line

/-- The settings that the choices make, if all of them are within bounds. -/
def settings (choices : Choices) : Except SettingsError Settings :=
  match choices.problem? with
  | some problem => .error problem
  | none => .ok (({} : Settings).override choices)

end Choices

end Frond
