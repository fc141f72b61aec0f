import Mathlib
import Frond.Proofs.Session.Staleness
import Frond.Session.Log

/-!
When a session tells that it has built its text: at a read that succeeds and finds the text stale,
and at no other request.
-/

namespace Frond

/-- Whether an event tells that a text was built. -/
def Event.tellsExpanded (event : Event) : Bool := event.message == "expanded grammar"

theorem Expansion.countP_events (rules : Rules) (number count : Nat) (text : String) :
    (Expansion.events rules number count text).countP Event.tellsExpanded = 0 := by
  induction count generalizing number text with
  | zero => rfl
  | succ count ih =>
      have noise : (noiseEvents text).countP Event.tellsExpanded = 0 := by
        unfold noiseEvents
        split <;> rfl
      rw [events]
      split
      · rfl
      · rw [List.countP_append, List.countP_cons, noise, ih]
        rfl

theorem Drawing.countP_events {α : Type} (drawing : Drawing α) :
    drawing.events.countP Event.tellsExpanded = 0 := by
  rw [events, List.countP_append, List.countP_append]
  split <;> split <;> rfl

namespace Session

theorem countP_discardEvents (derived : Derived) :
    (discardEvents derived).countP Event.tellsExpanded = 0 := by
  cases derived <;> rfl

theorem countP_editEvents (session : Session) (change : Edit) :
    (session.editEvents change).countP Event.tellsExpanded = 0 := by
  have stale (dropped : Option Derived) :
      ((dropped.map discardEvents).getD []).countP Event.tellsExpanded = 0 := by
    cases dropped with
    | none => rfl
    | some derived => exact countP_discardEvents derived
  unfold editEvents
  rw [List.countP_append, stale, Nat.add_zero]
  cases change <;> rfl

theorem countP_expandedEvents (session : Session) :
    session.expandedEvents.countP Event.tellsExpanded =
      if session.expanded.isOk && session.isStale .text then 1 else 0 := by
  cases kept : session.text with
  | some text => simp [expandedEvents, kept, isStale]
  | none =>
      have grown : session.plan.grammar.expandEvents.countP Event.tellsExpanded = 0 :=
        Expansion.countP_events _ _ _ _
      simp only [expandedEvents, expanded, kept, isStale, List.countP_append, grown]
      cases session.plan.expanded <;> rfl

/-- Segments that are kept are read along with a text that is kept, so nothing is built. -/
theorem countP_drawnEvents {session : Session} (linked : session.Linked) :
    session.drawnEvents.countP Event.tellsExpanded =
      if session.drawn.isOk && session.isStale .text then 1 else 0 := by
  cases kept : session.segments with
  | some segments =>
      have fresh : session.isStale .text = false := linked (by simp [isStale, kept])
      simp [drawnEvents, kept, fresh]
  | none =>
      have built := countP_expandedEvents session
      simp only [drawnEvents, drawn, kept, List.countP_append]
      cases read : session.expanded with
      | error failure =>
          rw [read] at built
          rw [built]
          rfl
      | ok expanded =>
          rw [read] at built
          rw [built, Drawing.countP_events]
          rfl

theorem isOk_respond_expanded (session : Session) :
    (session.respond .expanded).2.isOk = session.expanded.isOk := by
  rcases session.respond_expanded with ⟨failure, read, refused⟩ | ⟨text, next, read, answered⟩
  · rw [refused, read]
    rfl
  · rw [answered, read]
    rfl

theorem isOk_respond_drawing (session : Session) {request : Request}
    (wants : request.wants .segments = true) :
    (session.respond request).2.isOk = session.drawn.isOk := by
  rcases session.respond_of_drawn wants with
    ⟨failure, read, refused⟩ | ⟨segments, next, reply, read, answered⟩
  · rw [refused, read]
    rfl
  · rw [answered, read]
    rfl

theorem countP_events {session : Session} (linked : session.Linked) (request : Request) :
    (session.events request).countP Event.tellsExpanded =
      if (session.step request).reads .text && session.isStale .text then 1 else 0 := by
  cases request with
  | edit change =>
      have unread : (session.step (.edit change)).reads .text = false := by
        simp [Step.reads, step, Request.wants]
      rw [unread]
      exact countP_editEvents session change
  | discard derived =>
      have unread : (session.step (.discard derived)).reads .text = false := rfl
      rw [unread]
      exact countP_discardEvents derived
  | describe => rfl
  | expanded =>
      have reads : (session.step .expanded).reads .text = session.expanded.isOk := by
        rw [Step.reads, step, isOk_respond_expanded, Request.wants, Bool.and_true]
      rw [reads]
      exact countP_expandedEvents session
  | segments | render | frames =>
      rw [Step.reads, step, isOk_respond_drawing session rfl, Request.wants, Bool.and_true]
      exact countP_drawnEvents linked

/-- The text or the segments are fresh after a run exactly if they were read with success and not
dropped since. So segments are kept only along with their text, and whatever is asked next tells
that the text was built, once, exactly if it reads the text with success and finds it stale. -/
theorem fresh_iff_standing (grammar : Grammar) (requests : List Request) :
    (∀ derived, ((ofGrammar grammar).run requests).1.isStale derived = false ↔
        Standing derived ((ofGrammar grammar).history requests)) ∧
      (((ofGrammar grammar).run requests).1.isStale .segments = false →
        ((ofGrammar grammar).run requests).1.isStale .text = false) ∧
      ∀ request,
        (((ofGrammar grammar).run requests).1.events request).countP
            (·.message == "expanded grammar") =
          if (((ofGrammar grammar).run requests).1.step request).reads .text &&
            ((ofGrammar grammar).run requests).1.isStale .text then 1 else 0 := by
  have linked := linked_run (ofGrammar_linked grammar) requests
  refine ⟨?_, linked, countP_events linked⟩
  intro derived
  rw [isStale_run (ofGrammar_linked grammar)]
  have stale : (ofGrammar grammar).isStale derived = true := by cases derived <;> rfl
  simp [stale]

/-- The text is fresh along with the segments of one line. -/
theorem fresh_after_segments :
    ((ofGrammar { seed := "F", iterations := 0 }).run [.segments]).1.isStale .segments = false ∧
      ((ofGrammar { seed := "F", iterations := 0 }).run [.segments]).1.isStale .text = false :=
  ⟨rfl, (fresh_iff_standing { seed := "F", iterations := 0 } [.segments]).2.1 rfl⟩

end Session

end Frond
