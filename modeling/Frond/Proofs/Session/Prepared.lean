import Frond.Proofs.Preset.Room
import Frond.Proofs.Session.Coherence

/-!
What opening a session for a preset comes to. There are two refusals, a depth beyond the limit of
the preset and a step without length, in this order; otherwise the session has the settings and
nothing is built yet. There is room for what such a session draws.
-/

namespace Frond

theorem Preset.permits_iff (preset : Preset) (iterations : UInt32) :
    preset.grammar.permits iterations = true ↔ iterations ≤ preset.grammar.limit := by
  have limited : (preset.grammar.limit == 0) = false := by cases preset <;> rfl
  rw [Grammar.permits, limited, Bool.false_or, decide_eq_true_iff]

namespace Session

/-- Edits of a session that was never read leave nothing built, so only the plan is handed on. -/
theorem editAll_of_unread (plan : Plan) (changes : List Edit) :
    editAll { plan } changes =
      (changes.foldlM (fun (plan : Plan) change => (plan.edit change).map Edited.plan) plan).map
        fun plan => { plan } := by
  induction changes generalizing plan with
  | nil => rfl
  | cons change rest ih =>
      have first : edit { plan } change =
          (plan.edit change).map fun edited => { plan := edited.plan } := by
        rw [edit_eq]
        congr 1
        funext edited
        obtain ⟨plan, _ | _ | _⟩ := edited <;> rfl
      simp only [editAll, List.foldlM_cons, first]
      cases plan.edit change with
      | error failure => rfl
      | ok edited => exact ih edited.plan

end Session

namespace Plan

theorem map_edit_setIterations (plan : Plan) (iterations : UInt32) :
    (plan.edit (.setIterations iterations)).map Edited.plan =
      if plan.grammar.permits iterations then
        .ok { plan with grammar := { plan.grammar with iterations } }
      else .error (.tooDeep iterations plan.grammar.limit) := by
  cases permitted : plan.grammar.permits iterations with
  | false => simp [edit, permitted, Except.map]
  | true =>
      by_cases same : iterations = plan.grammar.iterations
      · subst same
        simp [edit, permitted, Except.map, unchanged]
      · simp [edit, permitted, same, Except.map, deepen, regrow]

theorem map_edit_setStepLength (plan : Plan) (length : UInt32) :
    (plan.edit (.setStepLength length)).map Edited.plan =
      if length = 0 then .error (.shortStep length) else .ok { plan with stepLength := length } := by
  by_cases zero : length = 0
  · simp [edit, zero, Except.map]
  · by_cases same : length = plan.stepLength
    · subst same
      simp [edit, zero, Except.map, unchanged]
    · simp [edit, zero, same, Except.map, stride]

theorem map_edit_setStart (plan : Plan) (start : Point Float) :
    (plan.edit (.setStart start)).map Edited.plan =
      .ok { plan with start := if start == plan.start then plan.start else start } := by
  cases same : start == plan.start <;> simp [edit, same, Except.map, unchanged]

end Plan

/-- The plan of a preset with settings. A start that is equal to the usual one is left alone. -/
def preparedPlan (preset : Preset) (settings : Settings) : Plan where
  grammar := { preset.grammar with iterations := settings.iterations }
  stepLength := settings.stepLength
  start := if settings.start == defaultStart then defaultStart else settings.start

theorem prepare_eq (preset : Preset) (settings : Settings) :
    prepare preset settings =
      if ¬settings.iterations ≤ preset.grammar.limit then
        .error (.tooDeep settings.iterations preset.grammar.limit)
      else if settings.stepLength = 0 then .error (.shortStep settings.stepLength)
      else .ok { plan := preparedPlan preset settings } := by
  have permitted := preset.permits_iff settings.iterations
  rw [prepare, Session.ofPreset, Session.ofGrammar, Session.editAll_of_unread]
  simp only [Settings.edits, List.foldlM_cons, List.foldlM_nil, Plan.map_edit_setIterations]
  by_cases deep : settings.iterations ≤ preset.grammar.limit
  · rw [if_pos (permitted.mpr deep), if_neg (not_not_intro deep)]
    simp only [bind, Except.bind, Plan.map_edit_setStepLength]
    by_cases zero : settings.stepLength = 0
    · rw [if_pos zero, if_pos zero]
      rfl
    · rw [if_neg zero, if_neg zero]
      simp only [Plan.map_edit_setStart]
      rfl
  · rw [if_neg (mt permitted.mp deep), if_pos deep]
    rfl

theorem prepare_eq_ok_iff {preset : Preset} {settings : Settings} {session : Session} :
    prepare preset settings = .ok session ↔
      settings.iterations ≤ preset.grammar.limit ∧ settings.stepLength ≠ 0 ∧
        session = { plan := preparedPlan preset settings } := by
  rw [prepare_eq]
  by_cases deep : settings.iterations ≤ preset.grammar.limit
  · by_cases zero : settings.stepLength = 0
    · simp [deep, zero]
    · simp [deep, zero, eq_comm]
  · simp [deep]

/-- Reading what a session draws that was opened for a preset cannot fail. -/
theorem Session.drawn_of_prepare {preset : Preset} {settings : Settings} {session : Session}
    (prepared : prepare preset settings = .ok session) :
    ∃ segments next, session.drawn = .ok (segments, next) := by
  obtain ⟨permitted, _, rfl⟩ := prepare_eq_ok_iff.mp prepared
  obtain ⟨text, grown⟩ := preset.expands permitted
  have read : Session.expanded { plan := preparedPlan preset settings } =
      .ok (text, { plan := preparedPlan preset settings, text := some text }) :=
    bind_eq_ok_iff.mpr ⟨text, grown, rfl⟩
  exact ⟨_, _, bind_eq_ok_iff.mpr ⟨_, read, rfl⟩⟩

end Frond
