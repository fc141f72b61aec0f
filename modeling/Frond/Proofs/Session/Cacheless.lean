import Frond.Proofs.Session.Coherence

/-!
A machine that holds a plan and nothing else. It takes the same requests as a session and builds
the text and the segments anew at every read. A session that keeps derived work cannot be told
from it: every reply is the same, and so is the plan at the end.
-/

namespace Frond

namespace Plan

/-- Carries out an edit on a bare plan. A setting that already has the wanted value is simply
written again; only the start is left alone when the new one is equal to it as numbers. -/
def assign (plan : Plan) : Edit → Except Failure (Reply × Plan)
  | .selectPreset preset => .ok (.done, { grammar := preset.grammar })
  | .reset => .ok (.done, {})
  | .setIterations iterations =>
    if plan.grammar.permits iterations then
      .ok (.done, { plan with grammar := { plan.grammar with iterations } })
    else .error (.tooDeep iterations plan.grammar.limit)
  | .increaseIterations =>
    if plan.grammar.iterations < plan.grammar.limit then
      .ok (.moved true,
        { plan with grammar := { plan.grammar with iterations := plan.grammar.iterations + 1 } })
    else .ok (.moved false, plan)
  | .decreaseIterations =>
    if 1 < plan.grammar.iterations then
      .ok (.moved true,
        { plan with grammar := { plan.grammar with iterations := plan.grammar.iterations - 1 } })
    else .ok (.moved false, plan)
  | .setSeed text => .ok (.done, { plan with grammar := { plan.grammar with seed := text } })
  | .setRule symbol text =>
    .ok (.done,
      { plan with grammar := { plan.grammar with rules := plan.grammar.rules.set symbol text } })
  | .setAngle radians =>
    .ok (.done, { plan with grammar := { plan.grammar with angle := radians } })
  | .setStepLength length =>
    if length = 0 then .error (.shortStep length)
    else .ok (.done, { plan with stepLength := length })
  | .increaseStepLength =>
    if plan.stepLength < maxStepLength then
      .ok (.moved true, { plan with stepLength := plan.stepLength + 1 })
    else .ok (.moved false, plan)
  | .decreaseStepLength =>
    if 1 < plan.stepLength then
      .ok (.moved true, { plan with stepLength := plan.stepLength - 1 })
    else .ok (.moved false, plan)
  | .setStart start => .ok (.done, if start == plan.start then plan else { plan with start })

/-- The answer of the bare plan to a request, and the plan after it. -/
def answer (plan : Plan) : Request → Except Failure (Reply × Plan)
  | .edit change => plan.assign change
  | .discard _ => .ok (.done, plan)
  | .expanded => do
    let text ← plan.expanded
    return (.text text, plan)
  | .segments => do
    let segments ← plan.segments
    return (.segments segments, plan)
  | .describe => .ok (.text plan.grammar.describe, plan)
  | .render style palette => do
    let document ← plan.render style palette
    return (.text document, plan)
  | .frames style palette => do
    let frames ← plan.frames style palette
    return (.frames frames, plan)

/-- Answers a request; on failure nothing changes. -/
def respond (plan : Plan) (request : Request) : Plan × Except Failure Reply :=
  match plan.answer request with
  | .ok (reply, next) => (next, .ok reply)
  | .error failure => (plan, .error failure)

/-- Answers requests one after the other. -/
def run (plan : Plan) : List Request → Plan × List (Except Failure Reply)
  | [] => (plan, [])
  | request :: rest =>
    let (next, reply) := plan.respond request
    let (last, replies) := next.run rest
    (last, reply :: replies)

/-- Writing a value again and leaving it alone come to the same, and a control has moved exactly
when it declares something stale. -/
theorem assign_eq (plan : Plan) (change : Edit) :
    plan.assign change =
      (plan.edit change).map fun edited => (change.reply edited.stale, edited.plan) := by
  cases change with
  | selectPreset preset => rfl
  | reset => rfl
  | setIterations iterations =>
      by_cases permitted : plan.grammar.permits iterations = true
      · by_cases same : iterations = plan.grammar.iterations
        · subst same
          simp only [assign, edit, permitted, Bool.not_true, Bool.false_eq_true, if_true, if_false]
          rfl
        · simp only [assign, edit, permitted, same, Bool.not_true, Bool.false_eq_true, if_true,
            if_false]
          rfl
      · simp only [assign, edit, Bool.eq_false_iff.mpr permitted, Bool.not_false, if_true,
          Bool.false_eq_true, if_false]
        rfl
  | increaseIterations => simp only [assign, edit]; split <;> rfl
  | decreaseIterations => simp only [assign, edit]; split <;> rfl
  | setSeed text => rfl
  | setRule symbol text => rfl
  | setAngle radians => rfl
  | setStepLength length =>
      by_cases zero : length = 0
      · simp only [assign, edit, zero, if_true]
        rfl
      · by_cases same : length = plan.stepLength
        · subst same
          simp only [assign, edit, zero, if_true, if_false]
          rfl
        · simp only [assign, edit, zero, same, if_false]
          rfl
  | increaseStepLength => simp only [assign, edit]; split <;> rfl
  | decreaseStepLength => simp only [assign, edit]; split <;> rfl
  | setStart start => simp only [assign, edit]; split <;> rfl

end Plan

namespace Session

/-- A session and a bare plan have come to the same: the same failure, or the same value with a
coherent session of that very plan. -/
inductive Agrees {α : Type} : Except Failure (α × Session) → Except Failure (α × Plan) → Prop
  | error (failure : Failure) : Agrees (.error failure) (.error failure)
  | ok (value : α) (next : Session) (plan : Plan) (same : next.plan = plan)
      (coherent : next.Coherent) : Agrees (.ok (value, next)) (.ok (value, plan))

theorem Reads.agrees {α β : Type} {session : Session} {fresh : Except Failure α}
    {kept : Except Failure (α × Session)} (reads : session.Reads fresh kept) (f : α → β) :
    Agrees (do let (value, next) ← kept; return (f value, next))
      (do let value ← fresh; return (f value, session.plan)) := by
  cases reads with
  | error failure => exact .error failure
  | ok value next plan coherent => exact .ok (f value) next session.plan plan coherent

theorem edit_agrees {session : Session} (coherent : session.Coherent) (change : Edit) :
    Agrees (session.answer (.edit change)) (session.plan.assign change) := by
  simp only [answer, edit_eq, Plan.assign_eq]
  cases carried : session.plan.edit change with
  | error failure => exact .error failure
  | ok edited =>
      exact .ok _ _ _ (session.after_plan edited)
        (after_coherent coherent (Plan.edit_declared carried))

theorem answer_agrees {session : Session} (coherent : session.Coherent) (request : Request) :
    Agrees (session.answer request) (session.plan.answer request) := by
  cases request with
  | edit change => exact edit_agrees coherent change
  | discard derived =>
      exact .ok _ _ _ (session.discard_plan derived) (discard_coherent coherent derived)
  | expanded => exact (expanded_reads coherent).agrees Reply.text
  | segments => exact (drawn_reads coherent).agrees Reply.segments
  | describe => exact .ok _ session session.plan rfl coherent
  | render style palette => exact (render_reads coherent style palette).agrees Reply.text
  | frames style palette => exact (frames_reads coherent style palette).agrees Reply.frames

/-- One request: the replies agree, and so do the plans after it. -/
theorem respond_agrees {session : Session} (coherent : session.Coherent) (request : Request) :
    (session.respond request).1.Coherent ∧
      session.plan.respond request =
        ((session.respond request).1.plan, (session.respond request).2) := by
  have agrees := answer_agrees coherent request
  simp only [respond, Plan.respond]
  generalize session.answer request = kept at agrees ⊢
  generalize session.plan.answer request = fresh at agrees ⊢
  cases agrees with
  | error failure => exact ⟨coherent, rfl⟩
  | ok reply next plan same coherent => exact ⟨coherent, by rw [same]⟩

/-- A run of requests, by the invariant that one request preserves. -/
theorem run_agrees {session : Session} (coherent : session.Coherent) (requests : List Request) :
    (session.run requests).1.Coherent ∧
      session.plan.run requests =
        ((session.run requests).1.plan, (session.run requests).2) := by
  induction requests generalizing session with
  | nil => exact ⟨coherent, rfl⟩
  | cons request rest ih =>
      obtain ⟨next, first⟩ := respond_agrees coherent request
      obtain ⟨last, others⟩ := ih next
      refine ⟨last, ?_⟩
      simp only [run, Plan.run, first, others]

end Session

/-- Edits change the plan; every other request reads it or forgets work derived from it. -/
def Request.isEdit : Request → Bool
  | .edit _ => true
  | _ => false

namespace Plan

theorem respond_of_not_edit (plan : Plan) {request : Request} (reading : request.isEdit = false) :
    (plan.respond request).1 = plan := by
  cases request with
  | edit change => cases reading
  | discard derived => rfl
  | expanded => simp only [respond, answer]; cases plan.expanded <;> rfl
  | segments => simp only [respond, answer]; cases plan.segments <;> rfl
  | describe => rfl
  | render style palette => simp only [respond, answer]; cases plan.render style palette <;> rfl
  | frames style palette => simp only [respond, answer]; cases plan.frames style palette <;> rfl

/-- What every edit preserves holds of the plan at the end of a run. -/
theorem run_preserves {holds : Plan → Prop}
    (edits : ∀ {plan : Plan} {change : Edit} {edited : Edited},
      holds plan → plan.edit change = .ok edited → holds edited.plan)
    {plan : Plan} (before : holds plan) (requests : List Request) :
    holds (plan.run requests).1 := by
  induction requests generalizing plan with
  | nil => exact before
  | cons request rest ih =>
      have next : holds (plan.respond request).1 := by
        cases request with
        | edit change =>
            simp only [respond, answer, assign_eq]
            cases carried : plan.edit change with
            | error failure => exact before
            | ok edited => exact edits before carried
        | _ =>
            rw [plan.respond_of_not_edit rfl]
            exact before
      exact ih next

/-- Only the edits of a run have a part in the plan it ends with. -/
theorem run_filter_isEdit (plan : Plan) (requests : List Request) :
    (plan.run (requests.filter Request.isEdit)).1 = (plan.run requests).1 := by
  induction requests generalizing plan with
  | nil => rfl
  | cons request rest ih =>
      cases kind : request.isEdit with
      | true =>
          rw [List.filter_cons_of_pos kind]
          exact ih _
      | false =>
          rw [List.filter_cons_of_neg (by rw [kind]; exact Bool.false_ne_true), ih]
          simp only [run, plan.respond_of_not_edit kind]

end Plan

namespace Session

/-- What coherent sessions keep has no part in their replies: the plan decides them all. -/
theorem run_replies_congr {left right : Session} (first : left.Coherent) (second : right.Coherent)
    (same : left.plan = right.plan) (requests : List Request) :
    (left.run requests).2 = (right.run requests).2 := by
  have replies := (run_agrees first requests).2
  rw [same, (run_agrees second requests).2] at replies
  exact (congrArg Prod.snd replies).symm

/-- A session that keeps derived work gives the replies of the bare plan and ends on its plan. Reads
and orders to forget can be struck from a run, and whatever follows is answered the same. -/
theorem run_eq_cacheless (grammar : Grammar) (requests : List Request) :
    ((ofGrammar grammar).run requests).2 = (Plan.run { grammar } requests).2 ∧
      ((ofGrammar grammar).run requests).1.plan = (Plan.run { grammar } requests).1 ∧
      ∀ later : List Request,
        (((ofGrammar grammar).run requests).1.run later).2 =
          (((ofGrammar grammar).run (requests.filter Request.isEdit)).1.run later).2 := by
  obtain ⟨coherent, whole⟩ := run_agrees (ofGrammar_coherent grammar) requests
  obtain ⟨struck, edits⟩ :=
    run_agrees (ofGrammar_coherent grammar) (requests.filter Request.isEdit)
  have same := Plan.run_filter_isEdit (ofGrammar grammar).plan requests
  rw [whole, edits] at same
  change Plan.run { grammar } requests = _ at whole
  refine ⟨by rw [whole], by rw [whole], ?_⟩
  intro later
  exact (run_replies_congr struck coherent same later).symm

end Session

end Frond
