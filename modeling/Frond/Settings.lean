import Frond.Geometry.Point
import Frond.Grammar
import Frond.Svg.Style

/-!
The settings of a drawing that do not belong to its grammar.
-/

namespace Frond

/-- The length of a step that nobody chose. -/
def defaultStepLength : UInt32 := 5

/-- The controls do not lengthen a step beyond this. -/
def maxStepLength : UInt32 := 20

/-- Where a drawing starts if nobody chose a place. -/
def defaultStart : Point Float := ⟨700.0, 500.0⟩

structure Settings where
  stepLength : UInt32 := defaultStepLength
  iterations : UInt32 := defaultIterations
  start : Point Float := defaultStart
  palette : Palette := {}
  deriving BEq, Repr

end Frond
