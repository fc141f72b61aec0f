import Frond.Session.Request

/-!
What a session logs: the choice of a preset, the derived work that becomes stale, and the
derived work that is built.
-/

namespace Frond

namespace Session

def logTarget : String := "drawsystem::lsystem"

def selectedEvent (preset : Preset) : Event :=
  { level := .info, target := logTarget, message := "selected preset",
    fields := [("preset", .quoted preset.name)] }

def staleTextEvent : Event :=
  { level := .debug, target := logTarget, message := "invalidated expanded string" }

def staleSegmentsEvent : Event :=
  { level := .debug, target := logTarget, message := "invalidated segments" }

def expandedEvent (size : Nat) : Event :=
  { level := .debug, target := logTarget, message := "expanded grammar",
    fields := [("len", .count size)] }

/-- Stale text makes the segments stale as well. -/
def discardEvents : Derived → List Event
  | .text => [staleTextEvent, staleSegmentsEvent]
  | .segments => [staleSegmentsEvent]

/-- What an edit logs; one that is refused or changes nothing is silent. -/
def editEvents (session : Session) (change : Edit) : List Event :=
  let choice := match change with
    | .selectPreset preset => [selectedEvent preset]
    | _ => []
  let stale := match session.plan.edit change with
    | .ok edited => edited.stale
    | .error _ => none
  choice ++ (stale.map discardEvents).getD []

/-- What reading the text logs; text that is kept is read silently. -/
def expandedEvents (session : Session) : List Event :=
  match session.text with
  | some _ => []
  | none =>
    session.plan.grammar.expandEvents ++
      match session.plan.expanded with
      | .ok text => [expandedEvent text.utf8ByteSize]
      | .error _ => []

/-- What reading the segments logs; segments that are kept are read silently. -/
def drawnEvents (session : Session) : List Event :=
  match session.segments with
  | some _ => []
  | none =>
    session.expandedEvents ++
      match session.expanded with
      | .ok (text, _) => (session.plan.drawing text).events
      | .error _ => []

/-- What answering a request logs. -/
def events (session : Session) : Request → List Event
  | .edit change => session.editEvents change
  | .discard derived => discardEvents derived
  | .expanded => session.expandedEvents
  | .segments | .render _ _ | .frames _ _ => session.drawnEvents
  | .describe => []

/-- What a list of edits logs, up to and including the first that is refused. -/
def editAllEvents (session : Session) : List Edit → List Event
  | [] => []
  | change :: rest =>
    session.editEvents change ++
      match session.edit change with
      | .ok next => next.editAllEvents rest
      | .error _ => []

/-- What a run of requests logs. -/
def runEvents (session : Session) : List Request → List Event
  | [] => []
  | request :: rest => session.events request ++ (session.respond request).1.runEvents rest

end Session

/-- What opening a session for a preset logs. -/
def prepareEvents (preset : Preset) (settings : Settings) : List Event :=
  (Session.ofPreset preset).editAllEvents settings.edits

/-- What is logged while a preset is rendered. -/
def renderEvents (preset : Preset) (settings : Settings) : List Event :=
  prepareEvents preset settings ++
    match prepare preset settings with
    | .ok session => session.drawnEvents
    | .error _ => []

end Frond
