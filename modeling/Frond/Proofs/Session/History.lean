import Frond.Session.Request

/-!
The history of a run: each request with the session it came to and the reply it was given, and what
it reads and drops of the derived work, told from these alone.
-/

namespace Frond

/-- What a request reads; all that is drawn is drawn from the text. -/
def Request.wants : Request → Derived → Bool
  | .expanded, .text => true
  | .segments, _ | .render _ _, _ | .frames _ _, _ => true
  | _, _ => false

/-- One request of a run: the session it came to, and how it was answered. -/
structure Step where
  before : Session
  request : Request
  reply : Except Failure Reply

namespace Step

/-- Whether a control that counts up or down has moved. -/
def hasMoved (step : Step) : Bool :=
  match step.reply with
  | .ok (.moved true) => true
  | _ => false

/-- Whether derived work is read with success. -/
def reads (step : Step) (derived : Derived) : Bool :=
  step.reply.isOk && step.request.wants derived

def dropsText (step : Step) : Bool :=
  match step.request with
  | .edit (.selectPreset _) | .edit .reset | .edit (.setSeed _) | .edit (.setRule _ _)
  | .edit (.setAngle _) | .discard .text => true
  | .edit (.setIterations iterations) =>
    step.reply.isOk && iterations != step.before.plan.grammar.iterations
  | .edit .increaseIterations | .edit .decreaseIterations => step.hasMoved
  | _ => false

def dropsSegments (step : Step) : Bool :=
  match step.request with
  | .edit (.setStepLength length) => step.reply.isOk && length != step.before.plan.stepLength
  | .edit .increaseStepLength | .edit .decreaseStepLength => step.hasMoved
  | .edit (.setStart start) => start != step.before.plan.start
  | .discard .segments => true
  | _ => false

/-- Whether derived work is dropped; segments do not outlive their text. -/
def drops (step : Step) : Derived → Bool
  | .text => step.dropsText
  | .segments => step.dropsText || step.dropsSegments

end Step

/-- Derived work was read with success and not dropped since. -/
def Standing (derived : Derived) (history : List Step) : Prop :=
  ∃ earlier read later, history = earlier ++ read :: later ∧ read.reads derived = true ∧
    ∀ step ∈ later, step.drops derived = false

theorem standing_cons (derived : Derived) (step : Step) (history : List Step) :
    Standing derived (step :: history) ↔
      Standing derived history ∨
        step.reads derived = true ∧ ∀ later ∈ history, later.drops derived = false := by
  constructor
  · rintro ⟨_ | ⟨first, earlier⟩, read, later, split, reads, kept⟩
    · cases split
      exact .inr ⟨reads, kept⟩
    · cases split
      exact .inl ⟨earlier, read, later, rfl, reads, kept⟩
  · rintro (⟨earlier, read, later, rfl, reads, kept⟩ | ⟨reads, kept⟩)
    · exact ⟨step :: earlier, read, later, rfl, reads, kept⟩
    · exact ⟨[], step, history, rfl, reads, kept⟩

namespace Session

/-- A request as a step of a run. -/
def step (session : Session) (request : Request) : Step :=
  { before := session, request, reply := (session.respond request).2 }

/-- The steps of a run. -/
def history (session : Session) : List Request → List Step
  | [] => []
  | request :: rest => session.step request :: (session.respond request).1.history rest

end Session

end Frond
