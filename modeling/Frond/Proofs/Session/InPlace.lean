import Frond.Proofs.Session.Staleness

/-!
The requests as calls that change a session where it stands. A read takes out what is kept before
it knows whether it can put anything back, and an edit writes before it forgets, so a failure
half-way would leave the session half changed. Carried out in this way every request comes to what
`Session.respond` says: an answer and the session after it, or a failure and the session as it was.
-/

namespace Frond

/-- A call on a session. It may fail, and whatever it has written by then stays written. -/
abbrev Call := ExceptT Failure (StateM Session)

namespace Call

/-- The session that a call leaves, and what the call comes to. -/
def on {α : Type} (call : Call α) (session : Session) : Session × Except Failure α :=
  let (result, after) := call.run.run session
  (after, result)

def expanded : Call String := do
  let kept := (← get).text
  modify fun session => { session with text := none }
  let text ← match kept with
    | some text => pure text
    | none => (← get).plan.expanded
  modify fun session => { session with text := some text }
  return text

def drawn : Call (List (Segment Float)) := do
  let kept := (← get).segments
  modify fun session => { session with segments := none }
  let segments ← match kept with
    | some segments => pure segments
    | none => do
      let plan := (← get).plan
      let text ← expanded
      pure (plan.drawing text).segments
  modify fun session => { session with segments := some segments }
  return segments

def edit (change : Edit) : Call Reply := do
  let edited ← (← get).plan.edit change
  modify fun session => { session with plan := edited.plan }
  if let some derived := edited.stale then
    modify (·.discard derived)
  return change.reply edited.stale

def answer : Request → Call Reply
  | .edit change => edit change
  | .discard derived => do
    modify (·.discard derived)
    return .done
  | .expanded => return .text (← expanded)
  | .segments => return .segments (← drawn)
  | .describe => return .text (← get).plan.grammar.describe
  | .render style palette => do
    let session ← get
    let segments ← drawn
    return .text (Svg.render (session.titled style) palette session.plan.start segments)
  | .frames style palette => do
    let session ← get
    let segments ← drawn
    return .frames (.ofSegments (session.titled style) palette session.plan.start segments)

/-- Answers requests one after the other, each on the session that the one before it has left. -/
def answerAll (session : Session) : List Request → Session × List (Except Failure Reply)
  | [] => (session, [])
  | request :: rest =>
    let (next, reply) := (answer request).on session
    let (last, replies) := answerAll next rest
    (last, reply :: replies)

section

variable {α β : Type} (session : Session)

theorem on_get : (get : Call Session).on session = (session, .ok session) := rfl

theorem on_modify (change : Session → Session) :
    (modify change : Call PUnit).on session = (change session, .ok ⟨⟩) := rfl

theorem on_liftM (result : Except Failure α) :
    (liftM result : Call α).on session = (session, result) := rfl

theorem on_bind (first : Call α) (next : α → Call β) :
    (first >>= next).on session =
      match first.on session with
      | (after, .ok value) => (next value).on after
      | (after, .error failure) => (after, .error failure) := by
  rcases ran : first.run.run session with ⟨failure | value, after⟩
  · have failed : first.on session = (after, .error failure) := by rw [on, ran]
    rw [failed, on, ExceptT.run_bind, StateT.run_bind, ran]
    rfl
  · have answered : first.on session = (after, .ok value) := by rw [on, ran]
    rw [answered, on, ExceptT.run_bind, StateT.run_bind, ran]
    rfl

/-- A read that leaves the session as it was when it fails. -/
def settle (read : Except Failure (α × Session)) : Session × Except Failure α :=
  match read with
  | .ok (value, next) => (next, .ok value)
  | .error failure => (session, .error failure)

/-- What was taken out is missing after a failure, but a read that fails has found nothing. -/
theorem on_expanded : expanded.on session = settle session session.expanded := by
  rcases session with ⟨plan, text | text, segments⟩
  · simp only [expanded, on_bind, on_get, on_modify, Session.expanded]
    cases plan.expanded <;> rfl
  · rfl

theorem on_drawn : drawn.on session = settle session session.drawn := by
  rcases session with ⟨plan, text, segments | segments⟩
  · simp only [drawn, on_bind, on_get, on_modify, on_expanded, Session.drawn]
    cases read : Session.expanded { plan, text } with
    | error failure => rfl
    | ok expanded =>
        rcases expanded with ⟨grown, next⟩
        have same : next.plan = plan := Session.plan_of_expanded read
        subst same
        rfl
  · rfl

theorem on_edit (change : Edit) : (edit change).on session = session.respond (.edit change) := by
  simp only [edit, on_bind, on_get, on_liftM]
  cases carried : session.plan.edit change with
  | error failure => rw [Session.respond_edit_error carried]
  | ok edited =>
      rw [Session.respond_edit_ok carried]
      rcases edited with ⟨plan, _ | derived⟩
      · rfl
      · rfl

theorem on_answer (request : Request) : (answer request).on session = session.respond request := by
  cases request with
  | edit change => exact on_edit session change
  | discard derived => rfl
  | expanded =>
      simp only [answer, on_bind, on_expanded, Session.respond, Session.answer]
      cases session.expanded <;> rfl
  | segments =>
      simp only [answer, on_bind, on_drawn, Session.respond, Session.answer]
      cases session.drawn <;> rfl
  | describe => rfl
  | render style palette =>
      simp only [answer, on_bind, on_get, on_drawn, Session.respond, Session.answer,
        Session.render]
      cases session.drawn <;> rfl
  | frames style palette =>
      simp only [answer, on_bind, on_get, on_drawn, Session.respond, Session.answer,
        Session.frames]
      cases session.drawn <;> rfl

theorem answerAll_eq (requests : List Request) :
    answerAll session requests = session.run requests := by
  induction requests generalizing session with
  | nil => rfl
  | cons request rest ih => simp only [answerAll, Session.run, on_answer, ih]

end

end Call

end Frond
