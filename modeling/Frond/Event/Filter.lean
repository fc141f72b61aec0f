import Frond.Event
import Frond.Text.Characters

/-!
Which events of the log are shown. A filter is a list of directives; for each event the one that
fits it most closely decides.
-/

namespace Frond

/-- Shows the events of a target, or those among them that have a field, up to a level of detail;
detail zero shows none. The empty target fits all events. -/
structure Directive where
  target : String := ""
  field : Option String := none
  detail : Nat
  deriving DecidableEq, Repr

/-- The names of what an event carries. -/
def Event.fieldNames (event : Event) : List String := "message" :: event.fields.map (·.1)

namespace Directive

/-- A target fits the events of the parts of the program whose names it starts. -/
def fits (directive : Directive) (event : Event) : Bool :=
  directive.target.toList.isPrefixOf event.target.toList &&
    directive.field.all event.fieldNames.contains

/-- Of two directives that fit an event the one with the longer target decides; then one with a
field, of fields the one that comes last by its name, and in the end the later directive. -/
def closer (directive later : Directive) : Directive :=
  let byField := match directive.field, later.field with
    | some name, some other => if precedes other name then directive else later
    | some _, none => directive
    | none, _ => later
  if directive.target.length = later.target.length then byField
  else if later.target.length < directive.target.length then directive
  else later

end Directive

abbrev Filter := List Directive

namespace Filter

def deciding? (filter : Filter) (event : Event) : Option Directive :=
  match filter.filter (·.fits event) with
  | [] => none
  | first :: others => some (others.foldl Directive.closer first)

/-- Whether an event is shown; one that no directive fits is not. -/
def shows (filter : Filter) (event : Event) : Bool :=
  (filter.deciding? event).any fun directive => event.level.detail ≤ directive.detail

/-- The filter that nobody chose. -/
def standard (verbose : Bool) : Filter :=
  [{ target := "drawsystem", detail := if verbose then Level.debug.detail else Level.info.detail }]

end Filter

end Frond
