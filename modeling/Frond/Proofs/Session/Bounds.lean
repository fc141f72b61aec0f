import Frond.Proofs.Session.Cacheless
import Frond.Proofs.Session.Prepared
import Frond.Proofs.Session.Staleness

/-!
The parameters of a session and the controls that count them. A step has a length and the depth
stays within its limit, whatever is asked in whatever order. A control stops before it would leave
its range, so it never wraps around, and the one that deepens does what setting the next depth does.
-/

namespace Frond

theorem one_le_of_ne_zero {word : UInt32} (positive : word ≠ 0) : 1 ≤ word := by
  have : word.toNat ≠ 0 := fun zero => positive (UInt32.toNat_inj.mp zero)
  rw [UInt32.le_iff_toNat_le]
  exact Nat.one_le_iff_ne_zero.mpr this

theorem toNat_add_one_of_lt {word bound : UInt32} (below : word < bound) :
    (word + 1).toNat = word.toNat + 1 ∧ (word + 1).toNat ≤ bound.toNat := by
  rw [UInt32.lt_iff_toNat_lt] at below
  have last := bound.toNat_lt
  have next : (word + 1).toNat = word.toNat + 1 := by
    rw [UInt32.toNat_add]
    exact Nat.mod_eq_of_lt (by simp; omega)
  exact ⟨next, by omega⟩

theorem toNat_sub_one_of_lt {word bound : UInt32} (above : bound < word) :
    word.toNat = (word - 1).toNat + 1 ∧ bound.toNat ≤ (word - 1).toNat := by
  rw [UInt32.lt_iff_toNat_lt] at above
  have last : (word - 1).toNat = word.toNat - 1 :=
    UInt32.toNat_sub_of_le word 1 (UInt32.le_iff_toNat_le.mpr (by simp; omega))
  omega

/-- The controls that count a parameter up or down by one. -/
inductive Control where
  | deepen
  | flatten
  | lengthen
  | shorten

namespace Control

def edit : Control → Edit
  | deepen => .increaseIterations
  | flatten => .decreaseIterations
  | lengthen => .increaseStepLength
  | shorten => .decreaseStepLength

/-- The parameter that a control counts. -/
def dial (control : Control) (plan : Plan) : UInt32 :=
  match control with
  | deepen | flatten => plan.grammar.iterations
  | lengthen | shorten => plan.stepLength

/-- One further on, as numbers that never wrap around, and not beyond the bound of the control. -/
def Reaches (control : Control) (plan : Plan) (before after : Nat) : Prop :=
  match control with
  | deepen => after = before + 1 ∧ after ≤ plan.grammar.limit.toNat
  | lengthen => after = before + 1 ∧ after ≤ 20
  | flatten | shorten => before = after + 1 ∧ 1 ≤ after

/-- The plan with another value on the dial of a control. -/
def turn (control : Control) (plan : Plan) (word : UInt32) : Edited :=
  match control with
  | deepen | flatten => plan.deepen word
  | lengthen | shorten => plan.stride word

@[simp] theorem dial_turn (control : Control) (plan : Plan) (word : UInt32) :
    control.dial (control.turn plan word).plan = word := by
  cases control <;> rfl

theorem Reaches.ne {control : Control} {plan : Plan} {before after : Nat}
    (reaches : control.Reaches plan before after) : after ≠ before := by
  cases control <;> simp only [Reaches] at reaches <;> omega

/-- A control leaves the plan alone or takes its dial one further within its bound. -/
theorem edit_cases (control : Control) (plan : Plan) :
    plan.edit control.edit = .ok plan.unchanged ∨
      ∃ word, plan.edit control.edit = .ok (control.turn plan word) ∧
        control.Reaches plan (control.dial plan).toNat word.toNat := by
  cases control with
  | deepen =>
      by_cases below : plan.grammar.iterations < plan.grammar.limit
      · exact .inr ⟨plan.grammar.iterations + 1, by simp [edit, Plan.edit, below, turn],
          toNat_add_one_of_lt below⟩
      · exact .inl (by simp [edit, Plan.edit, below])
  | flatten =>
      by_cases above : 1 < plan.grammar.iterations
      · exact .inr ⟨plan.grammar.iterations - 1, by simp [edit, Plan.edit, above, turn],
          toNat_sub_one_of_lt above⟩
      · exact .inl (by simp [edit, Plan.edit, above])
  | lengthen =>
      by_cases below : plan.stepLength < maxStepLength
      · exact .inr ⟨plan.stepLength + 1, by simp [edit, Plan.edit, below, turn],
          toNat_add_one_of_lt below⟩
      · exact .inl (by simp [edit, Plan.edit, below])
  | shorten =>
      by_cases above : 1 < plan.stepLength
      · exact .inr ⟨plan.stepLength - 1, by simp [edit, Plan.edit, above, turn],
          toNat_sub_one_of_lt above⟩
      · exact .inl (by simp [edit, Plan.edit, above])

end Control

namespace Plan

/-- The step has a length, and the depth is within the limit if there is one. -/
structure InRange (plan : Plan) : Prop where
  step : 1 ≤ plan.stepLength
  depth : plan.grammar.limit = 0 ∨ plan.grammar.iterations ≤ plan.grammar.limit

theorem inRange_preset (preset : Preset) : InRange { grammar := preset.grammar } := by
  cases preset <;> exact ⟨by decide, .inr (by decide)⟩

theorem inRange_turn {plan : Plan} (inRange : plan.InRange) {control : Control} {word : UInt32}
    (reaches : control.Reaches plan (control.dial plan).toNat word.toNat) :
    (control.turn plan word).plan.InRange := by
  cases control with
  | deepen => exact ⟨inRange.step, .inr (UInt32.le_iff_toNat_le.mpr reaches.2)⟩
  | flatten =>
      refine ⟨inRange.step, inRange.depth.imp_right fun within => ?_⟩
      have lower : word.toNat ≤ plan.grammar.iterations.toNat := by
        rw [show plan.grammar.iterations.toNat = word.toNat + 1 from reaches.1]
        exact Nat.le_succ _
      exact UInt32.le_trans (UInt32.le_iff_toNat_le.mpr lower) within
  | lengthen =>
      refine ⟨UInt32.le_iff_toNat_le.mpr ?_, inRange.depth⟩
      change 1 ≤ word.toNat
      rw [reaches.1]
      exact Nat.le_add_left _ _
  | shorten => exact ⟨UInt32.le_iff_toNat_le.mpr reaches.2, inRange.depth⟩

theorem inRange_control {plan : Plan} (inRange : plan.InRange) (control : Control) {edited : Edited}
    (accepted : plan.edit control.edit = .ok edited) : edited.plan.InRange := by
  rcases control.edit_cases plan with kept | ⟨word, turned, reaches⟩
  · rw [kept] at accepted
    cases accepted
    exact inRange
  · rw [turned] at accepted
    cases accepted
    exact inRange_turn inRange reaches

theorem inRange_edit {plan : Plan} {change : Edit} {edited : Edited} (inRange : plan.InRange)
    (accepted : plan.edit change = .ok edited) : edited.plan.InRange := by
  cases change with
  | selectPreset preset =>
      cases accepted
      exact inRange_preset preset
  | reset =>
      cases accepted
      exact ⟨by decide, .inl rfl⟩
  | setIterations iterations =>
      simp only [edit] at accepted
      split at accepted
      · cases accepted
      case isFalse permitted =>
        split at accepted <;> cases accepted
        · exact inRange
        · refine ⟨inRange.step, ?_⟩
          change plan.grammar.limit = 0 ∨ iterations ≤ plan.grammar.limit
          simpa [Grammar.permits, or_iff_not_imp_left] using permitted
  | setStepLength length =>
      simp only [edit] at accepted
      split at accepted
      · cases accepted
      case isFalse positive =>
        split at accepted <;> cases accepted
        · exact inRange
        · exact ⟨one_le_of_ne_zero positive, inRange.depth⟩
  | setStart start =>
      cases accepted
      split
      · exact inRange
      · exact ⟨inRange.step, inRange.depth⟩
  | setSeed text | setRule symbol text | setAngle radians =>
      cases accepted
      exact ⟨inRange.step, inRange.depth⟩
  | increaseIterations => exact inRange_control inRange .deepen accepted
  | decreaseIterations => exact inRange_control inRange .flatten accepted
  | increaseStepLength => exact inRange_control inRange .lengthen accepted
  | decreaseStepLength => exact inRange_control inRange .shorten accepted

end Plan

namespace Session

/-- The ways in which a session begins. A grammar of one's own has to respect its limit. -/
inductive Opens : Session → Prop
  | preset (preset : Preset) : Opens (ofPreset preset)
  | default : Opens {}
  | prepared {preset : Preset} {settings : Settings} {session : Session}
      (ready : prepare preset settings = .ok session) : Opens session
  | grammar {grammar : Grammar}
      (permitted : grammar.limit = 0 ∨ grammar.iterations ≤ grammar.limit) :
      Opens (ofGrammar grammar)

namespace Opens

variable {session : Session}

theorem eq_of_plan (opens : session.Opens) : session = { plan := session.plan } := by
  cases opens with
  | prepared ready => rw [(prepare_eq_ok_iff.mp ready).2.2]
  | _ => rfl

theorem coherent (opens : session.Opens) : session.Coherent := by
  rw [opens.eq_of_plan]
  exact coherent_of_empty rfl rfl

theorem inRange (opens : session.Opens) : session.plan.InRange := by
  cases opens with
  | preset preset => exact Plan.inRange_preset preset
  | default => exact ⟨by decide, .inl rfl⟩
  | prepared ready =>
      rcases prepare_eq_ok_iff.mp ready with ⟨permitted, positive, rfl⟩
      exact ⟨one_le_of_ne_zero positive, .inr permitted⟩
  | grammar permitted => exact ⟨(by decide : 1 ≤ defaultStepLength), permitted⟩

/-- Whatever is asked of a session, its parameters stay in range. -/
theorem inRange_run (opens : session.Opens) (requests : List Request) :
    (session.run requests).1.plan.InRange := by
  have same := (run_agrees opens.coherent requests).2
  have inRange := Plan.run_preserves Plan.inRange_edit opens.inRange requests
  rwa [same] at inRange

end Opens

/-- A control says whether it has moved. If it has, its dial is one further on and within the bound
of the control; if it has not, the session is as it was. -/
structure Obeys (session : Session) (control : Control) : Prop where
  reply : (session.respond (.edit control.edit)).2 = .ok (.moved true) ∨
    (session.respond (.edit control.edit)).2 = .ok (.moved false)
  moved_iff : (session.respond (.edit control.edit)).2 = .ok (.moved true) ↔
    (session.respond (.edit control.edit)).1 ≠ session
  reaches : (session.respond (.edit control.edit)).2 = .ok (.moved true) →
    control.Reaches session.plan (control.dial session.plan).toNat
      (control.dial (session.respond (.edit control.edit)).1.plan).toNat

theorem obeys (session : Session) (control : Control) : session.Obeys control := by
  rcases control.edit_cases session.plan with kept | ⟨word, turned, reaches⟩
  · have answered : session.respond (.edit control.edit) = (session, .ok (.moved false)) := by
      rw [respond_edit_ok kept]
      cases control <;> rfl
    constructor <;> rw [answered]
    · exact .inr rfl
    · simp
    · nofun
  · have answered : session.respond (.edit control.edit) =
        (session.after (control.turn session.plan word), .ok (.moved true)) := by
      rw [respond_edit_ok turned]
      cases control <;> rfl
    constructor <;> rw [answered]
    · exact .inl rfl
    · refine iff_of_true rfl fun same => reaches.ne ?_
      rw [← same]
      simp
    · intro _
      simpa using reaches

/-- Sets a depth; where that is refused, nothing has moved. -/
def tryDepth (session : Session) (iterations : UInt32) : Session × Except Failure Reply :=
  match session.respond (.edit (.setIterations iterations)) with
  | (after, .ok _) => (after, .ok (.moved true))
  | (_, .error _) => (session, .ok (.moved false))

theorem respond_increaseIterations {session : Session} (limited : 0 < session.plan.grammar.limit)
    {next : UInt32} (follows : next.toNat = session.plan.grammar.iterations.toNat + 1) :
    session.respond (.edit .increaseIterations) = session.tryDepth next := by
  have bounded : session.plan.grammar.limit ≠ 0 := by
    intro zero
    rw [zero] at limited
    exact absurd limited (by decide)
  by_cases below : session.plan.grammar.iterations < session.plan.grammar.limit
  · have same : next = session.plan.grammar.iterations + 1 :=
      UInt32.toNat_inj.mp (follows.trans (toNat_add_one_of_lt below).1.symm)
    have within : next ≤ session.plan.grammar.limit := by
      rw [UInt32.le_iff_toNat_le, follows]
      exact UInt32.lt_iff_toNat_lt.mp below
    have moved : next ≠ session.plan.grammar.iterations := by
      rintro rfl
      exact Nat.succ_ne_self _ follows.symm
    have set : session.plan.edit (.setIterations next) = .ok (session.plan.deepen next) := by
      simp [Plan.edit, Grammar.permits, within, moved]
    have deepened : session.plan.edit .increaseIterations = .ok (session.plan.deepen next) := by
      simp [Plan.edit, below, same]
    rw [tryDepth, respond_edit_ok set, respond_edit_ok deepened]
    rfl
  · have beyond : ¬next ≤ session.plan.grammar.limit := by
      rw [UInt32.le_iff_toNat_le, follows]
      exact fun within => below (UInt32.lt_iff_toNat_lt.mpr within)
    have refused : session.plan.edit (.setIterations next) =
        .error (.tooDeep next session.plan.grammar.limit) := by
      simp [Plan.edit, Grammar.permits, beyond, bounded]
    have kept : session.plan.edit .increaseIterations = .ok session.plan.unchanged := by
      simp [Plan.edit, below]
    rw [tryDepth, respond_edit_error refused, respond_edit_ok kept]
    rfl

/-- In every session that any run of requests has come to, the step has a length and the depth is
within its limit, the controls stay within their bounds and say whether they have moved, and
deepening a limited grammar is setting its next depth; after the last word there is no next one. -/
theorem parameters_in_range {session : Session} (opens : session.Opens) (requests : List Request) :
    let reached := (session.run requests).1
    1 ≤ reached.plan.stepLength ∧
      (reached.plan.grammar.limit = 0 ∨
        reached.plan.grammar.iterations ≤ reached.plan.grammar.limit) ∧
      (∀ control, reached.Obeys control) ∧
      (0 < reached.plan.grammar.limit →
        ∀ next : UInt32, next.toNat = reached.plan.grammar.iterations.toNat + 1 →
          reached.respond (.edit .increaseIterations) = reached.tryDepth next) ∧
      (reached.plan.grammar.iterations.toNat + 1 = UInt32.size →
        reached.respond (.edit .increaseIterations) = (reached, .ok (.moved false))) := by
  intro reached
  have inRange := opens.inRange_run requests
  refine ⟨inRange.step, inRange.depth, reached.obeys, ?_, ?_⟩
  · intro limited next follows
    exact respond_increaseIterations limited follows
  · intro last
    have stays : ¬reached.plan.grammar.iterations < reached.plan.grammar.limit := by
      have limit := reached.plan.grammar.limit.toNat_lt
      rw [UInt32.lt_iff_toNat_lt]
      simp only [UInt32.size] at last
      omega
    have kept : reached.plan.edit .increaseIterations = .ok reached.plan.unchanged := by
      simp [Plan.edit, stays]
    rw [respond_edit_ok kept]
    rfl

/-- One below the last depth of all that a word can name. -/
def deepGrammar : Grammar := { iterations := 4294967294, limit := 4294967295 }

theorem deepGrammar_in_range :
    let session := ofGrammar deepGrammar
    let deepest := (session.run [.edit .increaseIterations, .edit (.setStepLength 20)]).1
    session.Opens ∧ deepest.plan.grammar.iterations = 4294967295 ∧
      session.respond (.edit .increaseIterations) = session.tryDepth 4294967295 ∧
      1 ≤ deepest.plan.stepLength ∧ deepest.Obeys .lengthen ∧
      deepest.respond (.edit .increaseIterations) = (deepest, .ok (.moved false)) := by
  intro session deepest
  have opens : session.Opens := .grammar (.inr (by decide))
  rcases parameters_in_range opens [] with ⟨_, _, _, deepens, _⟩
  rcases parameters_in_range opens [.edit .increaseIterations, .edit (.setStepLength 20)] with
    ⟨step, _, obeys, _, last⟩
  exact ⟨opens, rfl, deepens (by decide) 4294967295 (by decide), step, obeys .lengthen,
    last (by decide)⟩

end Session

end Frond
