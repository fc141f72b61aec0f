import Frond.Preset.Basic
import Frond.Settings

/-!
What a session draws, and the edits that change it. An edit says which derived work it makes
stale: a change of the grammar both the expanded text and the segments, a change of step or
start only the segments.

Main definitions: `Plan`, `Edit`, and `Plan.edit`, which refuses some edits.
-/

namespace Frond

/-- A grammar, and how its text is walked. -/
structure Plan where
  grammar : Grammar := .identity
  stepLength : UInt32 := defaultStepLength
  start : Point Float := defaultStart

/-- What is derived from a plan: the expanded text, and from it the segments. -/
inductive Derived where
  | text
  | segments
  deriving DecidableEq, Repr

inductive Edit where
  /-- Takes the grammar of a preset, and the usual step and start. -/
  | selectPreset (preset : Preset)
  /-- Takes the identity grammar, and the usual step and start. -/
  | reset
  | setIterations (iterations : UInt32)
  | increaseIterations
  | decreaseIterations
  | setSeed (text : String)
  | setRule (symbol : Symbol) (text : String)
  | setAngle (radians : Float)
  | setStepLength (length : UInt32)
  | increaseStepLength
  | decreaseStepLength
  | setStart (start : Point Float)

/-- A plan after an edit, and what the edit has made stale. -/
structure Edited where
  plan : Plan
  stale : Option Derived

namespace Plan

/-- The plan with another grammar; everything derived from the old one is stale. -/
def regrow (plan : Plan) (grammar : Grammar) : Edited :=
  { plan := { plan with grammar }, stale := some .text }

/-- The plan with another number of generations. -/
def deepen (plan : Plan) (iterations : UInt32) : Edited :=
  plan.regrow { plan.grammar with iterations }

/-- The plan with another step. -/
def stride (plan : Plan) (stepLength : UInt32) : Edited :=
  { plan := { plan with stepLength }, stale := some .segments }

def unchanged (plan : Plan) : Edited := { plan, stale := none }

/-- Carries out an edit. The controls that count up and down stop at their bounds, and a setting
that already has the wanted value is left alone; a start counts as the same when its
coordinates are equal as numbers. -/
def edit (plan : Plan) : Edit → Except Failure Edited
  | .selectPreset preset => .ok { plan := { grammar := preset.grammar }, stale := some .text }
  | .reset => .ok { plan := {}, stale := some .text }
  | .setIterations iterations =>
    if !plan.grammar.permits iterations then .error (.tooDeep iterations plan.grammar.limit)
    else if iterations = plan.grammar.iterations then .ok plan.unchanged
    else .ok (plan.deepen iterations)
  | .increaseIterations =>
    .ok (if plan.grammar.iterations < plan.grammar.limit then
      plan.deepen (plan.grammar.iterations + 1) else plan.unchanged)
  | .decreaseIterations =>
    .ok (if 1 < plan.grammar.iterations then
      plan.deepen (plan.grammar.iterations - 1) else plan.unchanged)
  | .setSeed text => .ok (plan.regrow { plan.grammar with seed := text })
  | .setRule symbol text =>
    .ok (plan.regrow { plan.grammar with rules := plan.grammar.rules.set symbol text })
  | .setAngle radians => .ok (plan.regrow { plan.grammar with angle := radians })
  | .setStepLength length =>
    if length = 0 then .error (.shortStep length)
    else if length = plan.stepLength then .ok plan.unchanged
    else .ok (plan.stride length)
  | .increaseStepLength =>
    .ok (if plan.stepLength < maxStepLength then plan.stride (plan.stepLength + 1)
      else plan.unchanged)
  | .decreaseStepLength =>
    .ok (if 1 < plan.stepLength then plan.stride (plan.stepLength - 1) else plan.unchanged)
  | .setStart start =>
    .ok (if start == plan.start then plan.unchanged
      else { plan := { plan with start }, stale := some .segments })

end Plan

end Frond
