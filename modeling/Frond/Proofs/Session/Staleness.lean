import Mathlib
import Frond.Proofs.Session.Coherence
import Frond.Proofs.Session.History
import Frond.Proofs.Session.Kept

/-!
When derived work is stale. A request makes the text or the segments fresh by reading them with
success, and stale by dropping them; no other one has a part in that. So what is fresh at the end of
a run was read and not dropped since.
-/

namespace Frond

/-- Whether an edit that was carried out declares derived work stale. -/
def Edited.outdates (edited : Edited) (derived : Derived) : Bool :=
  match edited.stale with
  | none => false
  | some .text => true
  | some .segments => derived == .segments

namespace Session

/-- Segments are kept only along with their text. -/
def Linked (session : Session) : Prop :=
  session.isStale .segments = false → session.isStale .text = false

theorem respond_edit_ok {session : Session} {change : Edit} {edited : Edited}
    (accepted : session.plan.edit change = .ok edited) :
    session.respond (.edit change) = (session.after edited, .ok (change.reply edited.stale)) := by
  simp only [respond, answer, edit_eq, accepted]
  rfl

theorem respond_edit_error {session : Session} {change : Edit} {failure : Failure}
    (refused : session.plan.edit change = .error failure) :
    session.respond (.edit change) = (session, .error failure) := by
  simp only [respond, answer, edit_eq, refused]
  rfl

theorem isStale_after (session : Session) (edited : Edited) (derived : Derived) :
    (session.after edited).isStale derived =
      (session.isStale derived || edited.outdates derived) := by
  obtain ⟨plan, stale⟩ := edited
  cases stale with
  | none => cases derived <;> simp [after, isStale, Edited.outdates]
  | some dropped =>
      cases dropped <;> cases derived <;> simp [after, isStale, Edited.outdates, discard]

theorem step_edit_ok {session : Session} {change : Edit} {edited : Edited}
    (accepted : session.plan.edit change = .ok edited) :
    session.step (.edit change) =
      { before := session, request := .edit change, reply := .ok (change.reply edited.stale) } := by
  rw [step, respond_edit_ok accepted]

theorem step_edit_error {session : Session} {change : Edit} {failure : Failure}
    (refused : session.plan.edit change = .error failure) :
    session.step (.edit change) =
      { before := session, request := .edit change, reply := .error failure } := by
  rw [step, respond_edit_error refused]

/-- An edit declares stale what the outside sees it drop, by its reply and the values before. -/
theorem drops_of_edit_ok {session : Session} {change : Edit} {edited : Edited}
    (accepted : session.plan.edit change = .ok edited) (derived : Derived) :
    (session.step (.edit change)).drops derived = edited.outdates derived := by
  rw [step_edit_ok accepted]
  cases change with
  | selectPreset preset => cases accepted; cases derived <;> rfl
  | reset => cases accepted; cases derived <;> rfl
  | setSeed text => cases accepted; cases derived <;> rfl
  | setRule symbol text => cases accepted; cases derived <;> rfl
  | setAngle radians => cases accepted; cases derived <;> rfl
  | setIterations iterations =>
      simp only [Plan.edit] at accepted
      split at accepted
      · cases accepted
      · split at accepted <;> rename_i value <;> cases accepted <;> cases derived <;>
          simp [Step.drops, Step.dropsText, Step.dropsSegments, Edited.outdates, Plan.unchanged,
            Plan.deepen, Plan.regrow, value, Except.isOk, Except.toBool]
  | setStepLength length =>
      simp only [Plan.edit] at accepted
      split at accepted
      · cases accepted
      · split at accepted <;> rename_i value <;> cases accepted <;> cases derived <;>
          simp [Step.drops, Step.dropsText, Step.dropsSegments, Edited.outdates, Plan.unchanged,
            Plan.stride, value, Except.isOk, Except.toBool]
  | setStart start =>
      cases accepted
      split <;> rename_i value <;> cases derived <;>
        simp [Step.drops, Step.dropsText, Step.dropsSegments, Edited.outdates, Plan.unchanged,
          value, bne]
  | increaseIterations | decreaseIterations | increaseStepLength | decreaseStepLength =>
      cases accepted
      split <;> cases derived <;> rfl

theorem drops_of_edit_error {session : Session} {change : Edit} {failure : Failure}
    (refused : session.plan.edit change = .error failure) (derived : Derived) :
    (session.step (.edit change)).drops derived = false := by
  rw [step_edit_error refused]
  cases change with
  | setIterations iterations => cases derived <;> rfl
  | setStepLength length => cases derived <;> rfl
  | _ => cases refused

theorem isStale_respond_edit (session : Session) (change : Edit) (derived : Derived) :
    (session.respond (.edit change)).1.isStale derived =
      (session.isStale derived || (session.step (.edit change)).drops derived) := by
  cases carried : session.plan.edit change with
  | error failure =>
      rw [respond_edit_error carried, drops_of_edit_error carried, Bool.or_false]
  | ok edited =>
      rw [respond_edit_ok carried, drops_of_edit_ok carried, isStale_after]

theorem isStale_expanded {session next : Session} {text : String}
    (read : session.expanded = .ok (text, next)) :
    next.isStale .text = false ∧ next.isStale .segments = session.isStale .segments := by
  rcases expanded_cases read with ⟨stored, rfl⟩ | ⟨_, _, rfl⟩
  · exact ⟨by simp [isStale, stored], rfl⟩
  · exact ⟨rfl, rfl⟩

theorem isStale_drawn {session next : Session} (linked : session.Linked)
    {segments : List (Segment Float)} (read : session.drawn = .ok (segments, next))
    (derived : Derived) : next.isStale derived = false := by
  rcases drawn_cases read with ⟨stored, rfl⟩ | ⟨text, grown, _, built, _, rfl⟩
  · have fresh : next.isStale .segments = false := by simp [isStale, stored]
    cases derived with
    | text => exact linked fresh
    | segments => exact fresh
  · cases derived with
    | text => exact (isStale_expanded built).1
    | segments => rfl

/-- A request for anything drawn is answered exactly if the segments can be read, and leaves the
session that keeps them. -/
theorem respond_of_drawn {session : Session} {request : Request}
    (wants : request.wants .segments = true) :
    (∃ failure, session.drawn = .error failure ∧
        session.respond request = (session, .error failure)) ∨
      ∃ segments next reply, session.drawn = .ok (segments, next) ∧
        session.respond request = (next, .ok reply) := by
  cases read : session.drawn with
  | error failure =>
      left
      refine ⟨failure, rfl, ?_⟩
      cases request with
      | segments | render | frames =>
          simp only [respond, answer, render, frames, read]
          rfl
      | _ => cases wants
  | ok drawn =>
      obtain ⟨segments, next⟩ := drawn
      right
      cases request with
      | segments | render | frames =>
          simp only [respond, answer, render, frames, read]
          exact ⟨segments, next, _, rfl, rfl⟩
      | _ => cases wants

theorem isStale_respond_drawing {session : Session} (linked : session.Linked) {request : Request}
    (wants : request.wants .segments = true) (derived : Derived) :
    (session.respond request).1.isStale derived = false ↔
      (session.step request).reads derived = true ∨
        session.isStale derived = false ∧ (session.step request).drops derived = false := by
  have reads : (session.step request).reads derived = (session.respond request).2.isOk := by
    cases request with
    | segments | render | frames =>
        cases derived <;> simp only [Step.reads, step, Request.wants, Bool.and_true]
    | _ => cases wants
  have kept : (session.step request).drops derived = false := by
    cases request with
    | segments | render | frames => cases derived <;> rfl
    | _ => cases wants
  rw [reads, kept]
  rcases respond_of_drawn wants with
    ⟨failure, _, refused⟩ | ⟨segments, next, reply, read, answered⟩
  · rw [refused]
    simp [Except.isOk, Except.toBool]
  · rw [answered]
    simp [isStale_drawn linked read, Except.isOk, Except.toBool]

theorem respond_expanded (session : Session) :
    (∃ failure, session.expanded = .error failure ∧
        session.respond .expanded = (session, .error failure)) ∨
      ∃ text next, session.expanded = .ok (text, next) ∧
        session.respond .expanded = (next, .ok (.text text)) := by
  simp only [respond, answer]
  cases session.expanded with
  | error failure => exact .inl ⟨failure, rfl, rfl⟩
  | ok expanded => exact .inr ⟨expanded.1, expanded.2, rfl, rfl⟩

theorem isStale_respond_expanded (session : Session) (derived : Derived) :
    (session.respond .expanded).1.isStale derived = false ↔
      (session.step .expanded).reads derived = true ∨
        session.isStale derived = false ∧ (session.step .expanded).drops derived = false := by
  have kept : (session.step .expanded).drops derived = false := by cases derived <;> rfl
  rw [kept, step]
  rcases session.respond_expanded with ⟨failure, _, refused⟩ | ⟨text, next, read, answered⟩
  · rw [refused]
    simp [Step.reads, Except.isOk, Except.toBool]
  · obtain ⟨fresh, same⟩ := isStale_expanded read
    rw [answered]
    cases derived with
    | text => simp [fresh, Step.reads, Request.wants, Except.isOk, Except.toBool]
    | segments => simp [same, Step.reads, Request.wants]

/-- After a request derived work is fresh if it was read, or if it was fresh and is not dropped. -/
theorem isStale_respond {session : Session} (linked : session.Linked) (request : Request)
    (derived : Derived) :
    (session.respond request).1.isStale derived = false ↔
      (session.step request).reads derived = true ∨
        session.isStale derived = false ∧ (session.step request).drops derived = false := by
  cases request with
  | edit change =>
      have unread : (session.step (.edit change)).reads derived = false := by
        simp [Step.reads, step, Request.wants]
      rw [isStale_respond_edit, unread]
      simp
  | discard dropped =>
      cases dropped <;> cases derived <;>
        simp [respond, answer, step, discard, isStale, Step.reads, Request.wants, Step.drops,
          Step.dropsText, Step.dropsSegments]
  | expanded => exact isStale_respond_expanded session derived
  | describe =>
      cases derived <;>
        simp [respond, answer, step, Step.reads, Request.wants, Step.drops, Step.dropsText,
          Step.dropsSegments]
  | segments | render | frames => exact isStale_respond_drawing linked rfl derived

theorem linked_respond {session : Session} (linked : session.Linked) (request : Request) :
    (session.respond request).1.Linked := by
  intro fresh
  -- Whoever reads the segments reads the text, and whoever drops the text drops the segments.
  apply (isStale_respond linked request .text).mpr
  rcases (isStale_respond linked request .segments).mp fresh with reads | ⟨before, kept⟩
  · left
    simp only [Step.reads, Bool.and_eq_true] at reads ⊢
    refine ⟨reads.1, ?_⟩
    cases asked : (session.step request).request with
    | segments | render | frames => rfl
    | _ =>
        rw [asked] at reads
        cases reads.2
  · right
    simp only [Step.drops, Bool.or_eq_false_iff] at kept ⊢
    exact ⟨linked before, kept.1⟩

/-- A run: derived work is fresh at its end if it was read and not dropped since, or if it was fresh
before and never dropped. -/
theorem isStale_run {session : Session} (linked : session.Linked) (requests : List Request)
    (derived : Derived) :
    (session.run requests).1.isStale derived = false ↔
      Standing derived (session.history requests) ∨
        session.isStale derived = false ∧
          ∀ step ∈ session.history requests, step.drops derived = false := by
  -- The first request is the oldest: what it reads is kept if nothing after it drops it.
  induction requests generalizing session with
  | nil => simp [run, history, Standing]
  | cons request rest ih =>
      have first := isStale_respond linked request derived
      have later := ih (linked_respond linked request)
      change (((session.respond request).1.run rest).1.isStale derived = false ↔ _)
      simp only [history, standing_cons, List.forall_mem_cons]
      rw [later, first]
      tauto

theorem ofGrammar_linked (grammar : Grammar) : (ofGrammar grammar).Linked := by
  intro fresh
  cases fresh

theorem linked_run {session : Session} (linked : session.Linked) (requests : List Request) :
    (session.run requests).1.Linked := by
  induction requests generalizing session with
  | nil => exact linked
  | cons request rest ih => exact ih (linked_respond linked request)

end Session

end Frond
