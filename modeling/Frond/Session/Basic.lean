import Frond.Expansion
import Frond.Frames
import Frond.Session.Plan
import Frond.Turtle.Walk

/-!
A drawing session: a plan together with the text and the segments derived from it, each kept
until an edit makes it stale and built again when it is next read.

Main definitions: `Session`, the reads `Session.expanded`, `Session.drawn`, `Session.render` and
`Session.frames`, and `prepare`, which opens a session for a preset and settings.
-/

namespace Frond

structure Session where
  plan : Plan := {}
  /-- The expanded text, if it has been built since the grammar last changed. -/
  text : Option String := none
  /-- The segments, if they have been built since anything last changed. -/
  segments : Option (List (Segment Float)) := none

namespace Plan

/-- The text that is walked. -/
def expanded (plan : Plan) : Except Failure String := plan.grammar.expand

/-- The drawing of a text by this plan. -/
def drawing (plan : Plan) (text : String) : Drawing Float :=
  interpret text plan.grammar.angle plan.stepLength.toFloat plan.start

end Plan

namespace Session

/-- A session on a grammar, with the usual step and start. -/
def ofGrammar (grammar : Grammar) : Session := { plan := { grammar } }

def ofPreset (preset : Preset) : Session := ofGrammar preset.grammar

/-- Forgets derived work; segments never outlive the text they were drawn from. -/
def discard (session : Session) : Derived → Session
  | .text => { session with text := none, segments := none }
  | .segments => { session with segments := none }

/-- Whether derived work has to be built before it can be read. -/
def isStale (session : Session) : Derived → Bool
  | .text => session.text.isNone
  | .segments => session.segments.isNone

/-- Carries out an edit and forgets what it made stale. -/
def edit (session : Session) (change : Edit) : Except Failure Session := do
  let edited ← session.plan.edit change
  let session := { session with plan := edited.plan }
  return match edited.stale with
    | some derived => session.discard derived
    | none => session

/-- The expanded text, and the session that keeps it. -/
def expanded (session : Session) : Except Failure (String × Session) :=
  match session.text with
  | some text => .ok (text, session)
  | none => do
    let text ← session.plan.expanded
    return (text, { session with text := some text })

/-- The segments, and the session that keeps them. -/
def drawn (session : Session) : Except Failure (List (Segment Float) × Session) :=
  match session.segments with
  | some segments => .ok (segments, session)
  | none => do
    let (text, session) ← session.expanded
    let segments := (session.plan.drawing text).segments
    return (segments, { session with segments := some segments })

/-- The style with the name of the grammar for a title, where it has none of its own. -/
def titled (session : Session) (style : Svg.Style) : Svg.Style :=
  style.titled session.plan.grammar.name

/-- The finished drawing as a document. -/
def render (session : Session) (style : Svg.Style) (palette : Palette) :
    Except Failure (String × Session) := do
  let (segments, next) ← session.drawn
  return (Svg.render (session.titled style) palette session.plan.start segments, next)

/-- The drawing frame by frame. -/
def frames (session : Session) (style : Svg.Style) (palette : Palette) :
    Except Failure (Frames × Session) := do
  let (segments, next) ← session.drawn
  return (Frames.ofSegments (session.titled style) palette session.plan.start segments, next)

/-- Carries out edits until one is refused. -/
def editAll (session : Session) (changes : List Edit) : Except Failure Session :=
  changes.foldlM edit session

end Session

/-- The edits that bring settings into a session, in the order in which they may be refused. -/
def Settings.edits (settings : Settings) : List Edit :=
  [.setIterations settings.iterations, .setStepLength settings.stepLength,
    .setStart settings.start]

/-- A session for a preset with the given settings. -/
def prepare (preset : Preset) (settings : Settings) : Except Failure Session :=
  (Session.ofPreset preset).editAll settings.edits

/-- The drawing of a preset as a document. -/
def renderPreset (preset : Preset) (settings : Settings) (style : Svg.Style) :
    Except Failure String := do
  let session ← prepare preset settings
  let (document, _) ← session.render style settings.palette
  return document

end Frond
