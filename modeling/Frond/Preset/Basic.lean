import Frond.Failure
import Frond.Grammar

/-!
The presets: grammars of well-known curves, with the depth up to which each may be drawn.
-/

namespace Frond

inductive Preset where
  | sierpinski | dragon | plant1 | plant2 | islands | kochSnowflake | quadraticKoch | gosper
  deriving DecidableEq, Repr

/-- What makes a preset. -/
structure Preset.Entry where
  name : String
  /-- The name for the command line. -/
  slug : String
  seed : String
  /-- The turn of one `+` or `-`, in degrees. -/
  degrees : Float
  /-- The rules that change their symbol. -/
  rules : List (Symbol × String)
  limit : UInt32

namespace Preset

/-- The presets in the order in which they are listed and looked up. -/
def all : List Preset :=
  [sierpinski, dragon, plant1, plant2, islands, kochSnowflake, quadraticKoch, gosper]

def entry : Preset → Entry
  | sierpinski =>
    { name := "Sierpinski Triangle", slug := "sierpinski", seed := "A", degrees := 60.0,
      rules := [(.a, "B-A-B"), (.b, "A+B+A")], limit := 9 }
  | dragon =>
    { name := "Dragon Curve", slug := "dragon", seed := "FX", degrees := 90.0,
      rules := [(.x, "X+YF+"), (.y, "-FX-Y")], limit := 14 }
  | plant1 =>
    { name := "Fractal Plant 1", slug := "plant1", seed := "X", degrees := 25.0,
      rules := [(.x, "F-[[X]+X]+F[+FX]-X"), (.f, "FF")], limit := 7 }
  | plant2 =>
    { name := "Fractal Plant 2", slug := "plant2", seed := "F", degrees := 25.7,
      rules := [(.f, "F[+F]F[-F][F]")], limit := 6 }
  | islands =>
    { name := "Islands and Lake", slug := "islands", seed := "F+F+F+F", degrees := 90.0,
      rules := [(.f, "F+f-FF+F+FF+Ff+FF-f+FF-F-FF-Ff-FFF"), (.move, "ffffff")], limit := 3 }
  | kochSnowflake =>
    { name := "Koch Snowflake", slug := "koch-snowflake", seed := "F++F++F", degrees := 60.0,
      rules := [(.f, "F-F++F-F")], limit := 5 }
  | quadraticKoch =>
    { name := "Quadratic Koch Islands", slug := "quadratic-koch", seed := "F-F-F-F",
      degrees := 90.0, rules := [(.f, "F-F+F+FF-F-F+F")], limit := 4 }
  | gosper =>
    { name := "Gosper Curve", slug := "gosper", seed := "A", degrees := 60.0,
      rules := [(.a, "A-B--B+A++AA+B-"), (.b, "+A-BB--B-A++A+B")], limit := 5 }

def name (preset : Preset) : String := preset.entry.name

def slug (preset : Preset) : String := preset.entry.slug

/-- A fresh grammar: symbols without a rule of the preset stand for themselves. -/
def grammar (preset : Preset) : Grammar :=
  let entry := preset.entry
  { name := entry.name, seed := entry.seed, rules := Rules.identity.setAll entry.rules,
    angle := radiansOfDegrees entry.degrees, limit := entry.limit }

end Preset

end Frond
