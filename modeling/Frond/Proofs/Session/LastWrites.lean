import Frond.Proofs.Session.Noise
import Frond.Proofs.Session.Staleness

/-!
Only the last write to a setting counts. Whatever a run sets, in whatever order and with whatever
reads in between, each setting ends with the value that was last written to it, or with the one it
had before. So runs whose last writes agree lead sessions of one plan to one plan, and from there
on they cannot be told apart.
-/

namespace Frond

/-- What can be set in a plan by itself. -/
inductive Setting where
  | seed
  | rule (symbol : Symbol)
  | angle
  | iterations
  | stepLength
  | start
  deriving DecidableEq

def Setting.Value : Setting → Type
  | seed | rule _ => String
  | angle => Float
  | iterations | stepLength => UInt32
  | start => Point Float

namespace Plan

def value (plan : Plan) : (setting : Setting) → setting.Value
  | .seed => plan.grammar.seed
  | .rule symbol => plan.grammar.rules.replacement symbol
  | .angle => plan.grammar.angle
  | .iterations => plan.grammar.iterations
  | .stepLength => plan.stepLength
  | .start => plan.start

/-- What no setting can change: the name of the grammar and the limit of its depth. -/
def fixed (plan : Plan) : String × UInt32 := (plan.grammar.name, plan.grammar.limit)

theorem eq_of_values {left right : Plan} (fixed : left.fixed = right.fixed)
    (values : ∀ setting, left.value setting = right.value setting) : left = right := by
  rcases left with ⟨⟨name, seed, ⟨replacement⟩, angle, iterations, limit⟩, stepLength, start⟩
  rcases right with ⟨⟨name', seed', ⟨replacement'⟩, angle', iterations', limit'⟩, stepLength', start'⟩
  cases fixed
  have rules : replacement = replacement' := funext fun symbol => values (.rule symbol)
  cases rules
  cases (values .seed : seed = seed')
  cases (values .angle : angle = angle')
  cases (values .iterations : iterations = iterations')
  cases (values .stepLength : stepLength = stepLength')
  cases (values .start : start = start')
  rfl

end Plan

/-- The value that a request writes to a setting, if it writes to it at all. -/
def Request.writes : Request → (setting : Setting) → Option setting.Value
  | .edit (.setSeed text), .seed => some text
  | .edit (.setRule symbol text), .rule other => if other = symbol then some text else none
  | .edit (.setAngle radians), .angle => some radians
  | .edit (.setIterations iterations), .iterations => some iterations
  | .edit (.setStepLength length), .stepLength => some length
  | .edit (.setStart start), .start => some start
  | _, _ => none

/-- Requests that write to a setting, read, or forget derived work: all but those that take another
grammar and those that count. -/
def Request.sets : Request → Bool
  | .edit (.selectPreset _) | .edit .reset | .edit .increaseIterations | .edit .decreaseIterations
  | .edit .increaseStepLength | .edit .decreaseStepLength => false
  | _ => true

namespace Step

/-- What a step writes to a setting; a write that is refused is none. -/
def writes (step : Step) (setting : Setting) : Option setting.Value :=
  if step.reply.isOk then step.request.writes setting else none

theorem writes_of_not_edit {step : Step} (reading : step.request.isEdit = false)
    (setting : Setting) : step.writes setting = none := by
  have unwritten : step.request.writes setting = none := by
    cases asked : step.request with
    | edit change =>
        rw [asked] at reading
        cases reading
    | _ => rfl
  rw [writes, unwritten, ite_self]

/-- A step that sets or reads. A start that is equal to the one before is identical to it: two zeros
of different sign are equal, and the new one would not be written. -/
structure Sets (step : Step) : Prop where
  kind : step.request.sets = true
  start : ∀ start, step.request = .edit (.setStart start) →
    (start == step.before.plan.start) = true → start = step.before.plan.start

end Step

/-- The last of the values that a run writes to a setting. -/
def lastWrite (history : List Step) (setting : Setting) : Option setting.Value :=
  (history.filterMap (·.writes setting)).getLast?

theorem getD_lastWrite_cons (step : Step) (history : List Step) (setting : Setting)
    (before : setting.Value) :
    (lastWrite (step :: history) setting).getD before =
      (lastWrite history setting).getD ((step.writes setting).getD before) := by
  simp only [lastWrite, List.filterMap_cons]
  cases step.writes setting with
  | none => rfl
  | some value =>
      simp only [List.getLast?_cons]
      rfl

namespace Plan

variable {plan : Plan}

theorem value_assign {change : Edit} {reply : Reply} {next : Plan}
    (accepted : plan.assign change = .ok (reply, next)) (sets : (Request.edit change).sets = true)
    (exact : ∀ start, change = .setStart start → (start == plan.start) = true → start = plan.start) :
    next.fixed = plan.fixed ∧
      ∀ setting, next.value setting =
        ((Request.edit change).writes setting).getD (plan.value setting) := by
  cases change with
  | setSeed text | setAngle radians =>
      cases accepted
      exact ⟨rfl, fun setting => by cases setting <;> rfl⟩
  | setRule symbol text =>
      cases accepted
      refine ⟨rfl, fun setting => ?_⟩
      cases setting with
      | rule other =>
          by_cases same : other = symbol
          · subst same
            simp only [value, Rules.replacement_set_self, Request.writes, if_true]
            rfl
          · simp only [value, Rules.replacement_set_of_ne _ _ same, Request.writes, same, if_false]
            rfl
      | _ => rfl
  | setIterations iterations =>
      simp only [assign] at accepted
      split at accepted <;> cases accepted
      exact ⟨rfl, fun setting => by cases setting <;> rfl⟩
  | setStepLength length =>
      simp only [assign] at accepted
      split at accepted <;> cases accepted
      exact ⟨rfl, fun setting => by cases setting <;> rfl⟩
  | setStart start =>
      cases accepted
      split
      case isTrue equal =>
        refine ⟨rfl, fun setting => ?_⟩
        cases setting with
        | start => exact (exact start rfl equal).symm
        | _ => rfl
      case isFalse => exact ⟨rfl, fun setting => by cases setting <;> rfl⟩
  | _ => cases sets

end Plan

namespace Session

theorem plan_respond_of_not_edit {session : Session} (coherent : session.Coherent)
    {request : Request} (reading : request.isEdit = false) :
    (session.respond request).1.plan = session.plan := by
  have same := session.plan.respond_of_not_edit reading
  rwa [(respond_agrees coherent request).2] at same

/-- One request that sets or reads: the value that is written, if any, takes the place of the one
before, and all other values stay. -/
theorem value_respond {session : Session} (coherent : session.Coherent) {request : Request}
    (sets : (session.step request).Sets) :
    (session.respond request).1.plan.fixed = session.plan.fixed ∧
      ∀ setting, (session.respond request).1.plan.value setting =
        ((session.step request).writes setting).getD (session.plan.value setting) := by
  cases kind : request.isEdit with
  | false =>
      rw [plan_respond_of_not_edit coherent kind]
      refine ⟨rfl, fun setting => ?_⟩
      rw [Step.writes_of_not_edit kind]
      rfl
  | true =>
      cases request with
      | edit change =>
          cases carried : session.plan.edit change with
          | error failure =>
              rw [step_edit_error carried, respond_edit_error carried]
              exact ⟨rfl, fun _ => rfl⟩
          | ok edited =>
              have assigned : session.plan.assign change =
                  .ok (change.reply edited.stale, edited.plan) := by
                rw [Plan.assign_eq, carried]
                rfl
              have exact : ∀ start, change = .setStart start →
                  (start == session.plan.start) = true → start = session.plan.start := by
                rintro start rfl
                exact sets.start start rfl
              rw [step_edit_ok carried, respond_edit_ok carried, after_plan]
              exact Plan.value_assign assigned sets.kind exact
      | _ => cases kind

/-- A run that sets and reads: every setting ends with what was last written to it. -/
theorem value_run {session : Session} (coherent : session.Coherent) {requests : List Request}
    (sets : ∀ step ∈ session.history requests, step.Sets) :
    (session.run requests).1.plan.fixed = session.plan.fixed ∧
      ∀ setting, (session.run requests).1.plan.value setting =
        (lastWrite (session.history requests) setting).getD (session.plan.value setting) := by
  induction requests generalizing session with
  | nil => exact ⟨rfl, fun _ => rfl⟩
  | cons request rest ih =>
      rw [history, List.forall_mem_cons] at sets
      rcases value_respond coherent sets.1 with ⟨firstFixed, first⟩
      rcases ih (respond_agrees coherent request).1 sets.2 with ⟨restFixed, later⟩
      refine ⟨restFixed.trans firstFixed, fun setting => ?_⟩
      rw [history, getD_lastWrite_cons, ← first]
      exact later setting

/-- Runs that only set and read, on sessions of one plan, lead to one plan if each setting was last
given the same value in both or in neither. Whatever is then asked is answered alike, be it the
text, the segments, the summary, the document or the frames. -/
theorem answers_of_last_writes {left right : Session} (leftReached : left.Reachable)
    (rightReached : right.Reachable) (same : left.plan = right.plan)
    {leftRequests rightRequests : List Request}
    (leftSets : ∀ step ∈ left.history leftRequests, step.Sets)
    (rightSets : ∀ step ∈ right.history rightRequests, step.Sets)
    (writes : ∀ setting, lastWrite (left.history leftRequests) setting =
      lastWrite (right.history rightRequests) setting) :
    (left.run leftRequests).1.plan = (right.run rightRequests).1.plan ∧
      ∀ requests, ((left.run leftRequests).1.run requests).2 =
        ((right.run rightRequests).1.run requests).2 := by
  rcases value_run leftReached.coherent leftSets with ⟨leftFixed, leftValues⟩
  rcases value_run rightReached.coherent rightSets with ⟨rightFixed, rightValues⟩
  have plans : (left.run leftRequests).1.plan = (right.run rightRequests).1.plan := by
    apply Plan.eq_of_values
    · rw [leftFixed, rightFixed, same]
    · intro setting
      rw [leftValues, rightValues, writes, same]
  refine ⟨plans, fun requests => ?_⟩
  exact run_replies_congr (run_agrees leftReached.coherent leftRequests).1
    (run_agrees rightReached.coherent rightRequests).1 plans requests

theorem sets_history_of_no_start (session : Session) {requests : List Request}
    (kinds : ∀ request ∈ requests,
      request.sets = true ∧ (request.writes .start).isNone = true) :
    ∀ step ∈ session.history requests, step.Sets := by
  induction requests generalizing session with
  | nil => exact List.forall_mem_nil _
  | cons request rest ih =>
      rw [List.forall_mem_cons] at kinds
      rw [history, List.forall_mem_cons]
      refine ⟨⟨kinds.1.1, ?_⟩, ih _ kinds.2⟩
      intro start asked
      have elsewhere := kinds.1.2
      rw [show request = .edit (.setStart start) from asked] at elsewhere
      cases elsewhere

theorem sets_of_other_start {session : Session} {start : Point Float}
    (other : (start == session.plan.start) = false) :
    (session.step (.edit (.setStart start))).Sets := by
  refine ⟨rfl, ?_⟩
  intro same asked equal
  cases asked
  rw [show (start == session.plan.start) = true from equal] at other
  cases other

/-- What a run writes is told by its requests, once it is known which of them were refused. -/
theorem lastWrite_history (session : Session) (requests : List Request) (setting : Setting) :
    lastWrite (session.history requests) setting =
      ((requests.zip ((session.history requests).map (·.reply.isOk))).filterMap
        fun (request, accepted) => if accepted then request.writes setting else none).getLast? := by
  rw [lastWrite]
  congr 1
  induction requests generalizing session with
  | nil => rfl
  | cons request rest ih =>
      simp only [history, List.map_cons, List.zip_cons_cons, List.filterMap_cons, ih]
      rfl

/-- A line that may grow for two generations. -/
def shortGrammar : Grammar := { seed := "F", iterations := 1, limit := 2 }

def unread : Session := ofGrammar shortGrammar

def alreadyRead : Session := (unread.run [.segments]).1

/-- The depth comes last, after one that is refused. -/
def depthLast : List Request :=
  [.edit (.setStart ⟨-0.0, 1.5⟩), .edit (.setRule .f "FF"), .segments, .edit (.setIterations 9),
    .edit (.setRule .f "F+F"), .expanded, .edit (.setIterations 2)]

/-- The depth comes first, and is set twice. -/
def depthFirst : List Request :=
  [.edit (.setStart ⟨-0.0, 1.5⟩), .edit (.setIterations 0), .edit (.setIterations 2),
    .edit (.setStepLength 0), .discard .segments, .edit (.setRule .f "F+F")]

theorem answers_in_either_order :
    (unread.Reachable ∧ alreadyRead.Reachable ∧ unread.plan = alreadyRead.plan ∧
      (∀ step ∈ unread.history depthLast, step.Sets) ∧
      (∀ step ∈ alreadyRead.history depthFirst, step.Sets) ∧
      ∀ setting, lastWrite (unread.history depthLast) setting =
        lastWrite (alreadyRead.history depthFirst) setting) ∧
      ((unread.run depthLast).1.run [.segments]).2 =
        ((alreadyRead.run depthFirst).1.run [.segments]).2 := by
  have first : unread.Reachable := ⟨shortGrammar, [], rfl⟩
  have second : alreadyRead.Reachable := ⟨shortGrammar, [.segments], rfl⟩
  have firstSets : ∀ step ∈ unread.history depthLast, step.Sets := by
    rw [depthLast, history, List.forall_mem_cons]
    exact ⟨sets_of_other_start (by decide +kernel), sets_history_of_no_start _ (by decide)⟩
  have secondSets : ∀ step ∈ alreadyRead.history depthFirst, step.Sets := by
    rw [depthFirst, history, List.forall_mem_cons]
    exact ⟨sets_of_other_start (by decide +kernel), sets_history_of_no_start _ (by decide)⟩
  have firstRefusals : (unread.history depthLast).map (·.reply.isOk) =
      [true, true, true, false, true, true, true] := by decide +kernel
  have secondRefusals : (alreadyRead.history depthFirst).map (·.reply.isOk) =
      [true, true, true, false, true, true] := by decide +kernel
  have writes : ∀ setting, lastWrite (unread.history depthLast) setting =
      lastWrite (alreadyRead.history depthFirst) setting := by
    intro setting
    rw [lastWrite_history, lastWrite_history, firstRefusals, secondRefusals]
    cases setting with
    | rule symbol => cases symbol <;> rfl
    | _ => rfl
  have plans : unread.plan = alreadyRead.plan := rfl
  exact ⟨⟨first, second, plans, firstSets, secondSets, writes⟩,
    (answers_of_last_writes first second plans firstSets secondSets writes).2 [.segments]⟩

end Session

end Frond
