import Frond.Number.Fixed
import Frond.Rules

/-!
A grammar: the text that growth starts from, the rules it grows by, the angle of a turn, and
how many generations are asked for and allowed.
-/

namespace Frond

def pi : Float := 3.141592653589793

def radiansOfDegrees (degrees : Float) : Float := degrees * pi / 180.0

def degreesOfRadians (radians : Float) : Float := radians * 180.0 / pi

/-- The number of generations that nobody chose. -/
def defaultIterations : UInt32 := 3

structure Grammar where
  /-- The display name; the identity grammar has none. -/
  name : String := ""
  /-- The text of generation zero. -/
  seed : String := ""
  rules : Rules := .identity
  /-- The turn of one `+` or `-`, in radians. -/
  angle : Float := 0.0
  /-- The generation that is drawn. -/
  iterations : UInt32 := defaultIterations
  /-- The deepest generation that a session accepts; zero sets no limit. -/
  limit : UInt32 := 0
  deriving BEq

namespace Grammar

/-- The grammar that leaves every text as it is. -/
def identity : Grammar := {}

instance : Inhabited Grammar := ⟨identity⟩

def withDegrees (grammar : Grammar) (degrees : Float) : Grammar :=
  { grammar with angle := radiansOfDegrees degrees }

def degrees (grammar : Grammar) : Float := degreesOfRadians grammar.angle

/-- Whether a session may draw this many generations. -/
def permits (grammar : Grammar) (iterations : UInt32) : Bool :=
  grammar.limit == 0 || iterations ≤ grammar.limit

/-- The lines of a summary: the name if there is one, depth and angle, the seed if there is
one, and the rules that change their symbol. -/
def summaryLines (grammar : Grammar) : List String :=
  (if grammar.name.isEmpty then [] else [grammar.name]) ++
    ["Fractal depth: " ++ toString grammar.iterations.toNat,
      "Angle increment: " ++ fixed 2 grammar.degrees] ++
    (if grammar.seed.isEmpty then [] else ["Axiom: " ++ grammar.seed]) ++
    grammar.rules.overridden.map fun (symbol, text) =>
      String.singleton symbol.toChar ++ " -> " ++ text

def describe (grammar : Grammar) : String := "\n".intercalate grammar.summaryLines

end Grammar

end Frond
