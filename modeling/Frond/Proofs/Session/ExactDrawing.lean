import Mathlib
import Frond.Proofs.Session.Prepared
import Frond.Proofs.Turtle.Placement

/-!
Sessions without rounding. Beside each double of a drawing an exact number is kept, and the turtle
looks where its double heading says. Then to change the start of a session moves what is drawn, and
to change the step from an origin scales it; in doubles both hold but for the rounding.
-/

namespace Frond

variable {R : Type} [CommRing R]

/-- Exact values of doubles, and of the sine and the cosine of a heading. Doubles that are equal as
numbers have one value. -/
structure ExactReading (R : Type) where
  value : Float → R
  sin : Float → R
  cos : Float → R
  value_of_beq : ∀ {a b : Float}, (a == b) = true → value a = value b

namespace ExactReading

/-- Doubles with exact numbers beside them. What a heading leads to depends on the double only. -/
abbrev circle (reading : ExactReading R) : Trigonometry (Float × R) where
  sin heading := (heading.1.sin, reading.sin heading.1)
  cos heading := (heading.1.cos, reading.cos heading.1)

def start (reading : ExactReading R) (plan : Plan) : Point (Float × R) :=
  ⟨(plan.start.x, reading.value plan.start.x), (plan.start.y, reading.value plan.start.y)⟩

/-- The drawing of a text by a plan, with exact positions beside those in doubles. -/
def drawing (reading : ExactReading R) (plan : Plan) (text : String) : Drawing (Float × R) :=
  @interpret (Float × R) _ _ _ _ reading.circle text (plan.grammar.angle, 0)
    (plan.stepLength.toFloat, plan.stepLength.toNat) (reading.start plan)

end ExactReading

def Point.doubles (point : Point (Float × R)) : Point Float := ⟨point.x.1, point.y.1⟩

def Point.exact (point : Point (Float × R)) : Point R := ⟨point.x.2, point.y.2⟩

namespace ExactReading

variable (reading : ExactReading R)

/-- The segments of a plan, each number with an exact one beside it. -/
def traced (plan : Plan) : Except Failure (List (Segment (Float × R))) := do
  let text ← plan.expanded
  return (reading.drawing plan text).segments

/-- The exact segments of a plan. -/
def segments (plan : Plan) : Except Failure (List (Segment R)) :=
  (reading.traced plan).map (List.map (Segment.mapEnds Point.exact))

theorem map_doubles_drawing (plan : Plan) (text : String) :
    (reading.drawing plan text).segments.map (Segment.mapEnds Point.doubles) =
      (plan.drawing text).segments := by
  let := reading.circle
  have inStep : InStep (fun (p : Point (Float × R)) q => q = p.doubles)
      (fun heading other => other = heading.1) (plan.grammar.angle, 0)
      (plan.stepLength.toFloat, (plan.stepLength.toNat : R)) plan.grammar.angle
      plan.stepLength.toFloat := by
    refine .of_read (fun _ => rfl) (fun _ => rfl) ?_
    rintro pose ⟨_, _⟩ rfl rfl
    rfl
  obtain ⟨segments, _, _, _⟩ := interpret_beside inStep rfl rfl text
  exact (map_mapEnds_eq segments).symm.trans (List.map_id _)

/-- The doubles are those of the plan. -/
theorem map_doubles_traced (plan : Plan) :
    (reading.traced plan).map (List.map (Segment.mapEnds Point.doubles)) = plan.segments := by
  rw [traced, Plan.segments]
  cases plan.expanded with
  | error failure => rfl
  | ok text => exact congrArg Except.ok (reading.map_doubles_drawing plan text)

theorem exact_ahead (pose : Pose (Float × R)) (length : Float × R) :
    (@Pose.ahead _ _ _ _ reading.circle pose length).exact =
      ⟨pose.position.exact.x + length.2 * reading.sin pose.heading.1,
        pose.position.exact.y - length.2 * reading.cos pose.heading.1⟩ := rfl

/-- Where the start of a plan has to go, once it is scaled, to be that of another plan. -/
def shift (plan other : Plan) (scale : R) : Point R :=
  ⟨reading.value other.start.x - scale * reading.value plan.start.x,
    reading.value other.start.y - scale * reading.value plan.start.y⟩

theorem start_shift (plan other : Plan) (scale : R) :
    (reading.start other).exact =
      (reading.start plan).exact.placed scale (reading.shift plan other scale) := by
  simp [start, shift, Point.exact, Point.placed]

variable {plan other : Plan} {scale : R}

theorem inStep_shift (step : (other.stepLength.toNat : R) = scale * plan.stepLength.toNat)
    (angle : Float) :
    @InStep _ _ (fun p q : Point (Float × R) =>
        q.exact = p.exact.placed scale (reading.shift plan other scale))
      (fun heading other => other = heading) _ _ _ reading.circle _ _ _ reading.circle
      (angle, 0) (plan.stepLength.toFloat, (plan.stepLength.toNat : R))
      (angle, 0) (other.stepLength.toFloat, (other.stepLength.toNat : R)) := by
  let := reading.circle
  refine .of_read (fun _ => rfl) (fun _ => rfl) ?_
  intro pose follower near facing
  rw [exact_ahead, exact_ahead, near, facing, step]
  simp only [Point.placed, Point.mk.injEq]
  constructor <;> ring

theorem drawing_placed (grammar : other.grammar = plan.grammar)
    (step : (other.stepLength.toNat : R) = scale * plan.stepLength.toNat) (text : String) :
    (reading.drawing other text).segments.map (Segment.mapEnds Point.exact) =
      (reading.drawing plan text).segments.map
        (Segment.mapEnds fun p => p.exact.placed scale (reading.shift plan other scale)) := by
  let := reading.circle
  have inStep := reading.inStep_shift step plan.grammar.angle
  have opening := reading.start_shift plan other scale
  rw [drawing, drawing, grammar]
  obtain ⟨segments, _, _, _⟩ := interpret_beside inStep opening rfl text
  exact map_mapEnds_eq segments

/-- Two plans of one grammar draw the same, at different places and in different sizes. -/
theorem segments_placed (grammar : other.grammar = plan.grammar)
    (step : (other.stepLength.toNat : R) = scale * plan.stepLength.toNat) :
    reading.segments other =
      (reading.segments plan).map (List.map (·.placed scale (reading.shift plan other scale))) := by
  rw [segments, segments, traced, traced, Plan.expanded_congr grammar]
  cases plan.expanded with
  | error failure => rfl
  | ok text =>
      have placed := reading.drawing_placed grammar step text
      change Except.ok _ = Except.ok _
      rw [placed, List.map_map]
      rfl

end ExactReading

namespace Session

/-- An edit that leads from one plan to another leads from one session to another. -/
theorem edit_of_map_plan {session : Session} {change : Edit} {plan : Plan}
    (edited : (session.plan.edit change).map Edited.plan = .ok plan) :
    ∃ next, session.edit change = .ok next ∧ next.plan = plan := by
  rw [edit_eq]
  cases accepted : session.plan.edit change with
  | error failure =>
      rw [accepted] at edited
      cases edited
  | ok after =>
      rw [accepted] at edited
      cases edited
      exact ⟨session.after after, rfl, session.after_plan after⟩

/-- The edits that give a plan another step. -/
def strides (length : UInt32) : List Edit :=
  [.setStepLength length, .increaseStepLength, .decreaseStepLength]

theorem kept_by_stride {plan : Plan} {edited : Edited} {length : UInt32} {change : Edit}
    (stride : change ∈ strides length) (accepted : plan.edit change = .ok edited) :
    edited.plan.grammar = plan.grammar ∧ edited.plan.start = plan.start := by
  simp only [strides, List.mem_cons, List.not_mem_nil, or_false] at stride
  rcases stride with rfl | rfl | rfl
  · simp only [Plan.edit] at accepted
    split at accepted
    · cases accepted
    · split at accepted <;> cases accepted <;> exact ⟨rfl, rfl⟩
  · cases accepted
    split <;> exact ⟨rfl, rfl⟩
  · cases accepted
    split <;> exact ⟨rfl, rfl⟩

theorem plan_of_stride {session next : Session} {length : UInt32} {change : Edit}
    (stride : change ∈ strides length) (accepted : session.edit change = .ok next) :
    next.plan.grammar = session.plan.grammar ∧ next.plan.start = session.plan.start := by
  rw [edit_eq] at accepted
  cases made : session.plan.edit change with
  | error failure =>
      rw [made] at accepted
      cases accepted
  | ok edited =>
      rw [made] at accepted
      cases accepted
      rw [after_plan]
      exact kept_by_stride stride made

end Session

namespace ExactReading

variable (reading : ExactReading R) (session : Session)

omit [CommRing R] in
/-- A start that is kept since it is equal to the new one has the same value. -/
theorem value_kept (start before : Point Float) :
    let kept := if start == before then before else start
    reading.value kept.x = reading.value start.x ∧
      reading.value kept.y = reading.value start.y := by
  intro kept
  by_cases same : (start == before) = true
  · simp only [kept, if_pos same]
    change (start.x == before.x && start.y == before.y) = true at same
    obtain ⟨x, y⟩ := Bool.and_eq_true_iff.mp same
    exact ⟨(reading.value_of_beq x).symm, (reading.value_of_beq y).symm⟩
  · simp only [kept, if_neg same, and_self]

theorem segments_of_setStart (start : Point Float) :
    ∃ next, session.edit (.setStart start) = .ok next ∧
      reading.segments next.plan = (reading.segments session.plan).map
        (List.map (·.placed 1 ⟨reading.value start.x - reading.value session.plan.start.x,
          reading.value start.y - reading.value session.plan.start.y⟩)) := by
  obtain ⟨next, accepted, plan⟩ := Session.edit_of_map_plan (session.plan.map_edit_setStart start)
  refine ⟨next, accepted, ?_⟩
  have grammar : next.plan.grammar = session.plan.grammar := by rw [plan]
  have step : (next.plan.stepLength.toNat : R) = 1 * session.plan.stepLength.toNat := by
    rw [plan, one_mul]
  have moved := reading.segments_placed grammar step
  obtain ⟨x, y⟩ := reading.value_kept start session.plan.start
  rw [moved, shift, plan, x, y, one_mul, one_mul]

theorem segments_of_stride {session next : Session} {length : UInt32} {change : Edit}
    (stride : change ∈ Session.strides length) (accepted : session.edit change = .ok next)
    (origin : reading.value session.plan.start.x = 0 ∧ reading.value session.plan.start.y = 0)
    {scale : R}
    (step : (next.plan.stepLength.toNat : R) = scale * session.plan.stepLength.toNat) :
    reading.segments next.plan =
      (reading.segments session.plan).map (List.map (·.placed scale .origin)) := by
  obtain ⟨grammar, start⟩ := Session.plan_of_stride stride accepted
  rw [reading.segments_placed grammar step, shift, start, origin.1, origin.2, mul_zero, sub_zero]
  rfl

end ExactReading

/-- The values of finite doubles. -/
def rationalValue (number : Float) : ℚ :=
  match number.toModel.unpack with
  | .finite sign m e _ => sign.apply m * 2 ^ e
  | _ => 0

/-- Doubles read as rational numbers, the sines and cosines of headings included. -/
def ExactReading.rational : ExactReading ℚ where
  value := rationalValue
  sin heading := rationalValue heading.sin
  cos heading := rationalValue heading.cos
  value_of_beq := by
    intro a b equal
    obtain ⟨_, _, rfl | ⟨rfl, rfl⟩ | ⟨rfl, rfl⟩⟩ := Float.beq_iff_ne_nan_and_eq.mp equal
    · rfl
    · rfl
    · rfl

/-- What becomes of the exact segments of a session when its start or its step is changed. The
doubles beside them are what the session draws. -/
structure ExactReading.Follows (reading : ExactReading R) (session : Session) : Prop where
  doubles : session.Coherent → session.drawn.map Prod.fst =
    (reading.traced session.plan).map (List.map (Segment.mapEnds Point.doubles))
  moved : ∀ start, ∃ next, session.edit (.setStart start) = .ok next ∧
    reading.segments next.plan = (reading.segments session.plan).map
      (List.map (·.placed 1 ⟨reading.value start.x - reading.value session.plan.start.x,
        reading.value start.y - reading.value session.plan.start.y⟩))
  accepted : ∀ length ≠ 0, ∃ next, session.edit (.setStepLength length) = .ok next ∧
    next.plan.stepLength = length
  scaled : ∀ length, ∀ change ∈ Session.strides length, ∀ next, session.edit change = .ok next →
    reading.value session.plan.start.x = 0 ∧ reading.value session.plan.start.y = 0 →
    ∀ scale : R, (next.plan.stepLength.toNat : R) = scale * session.plan.stepLength.toNat →
      reading.segments next.plan =
        (reading.segments session.plan).map (List.map (·.placed scale .origin))

theorem ExactReading.follows (reading : ExactReading R) (session : Session) :
    reading.Follows session where
  doubles := by
    intro coherent
    rw [reading.map_doubles_traced, (Session.drawn_reads coherent).map_fst]
  moved := reading.segments_of_setStart session
  accepted := by
    intro length positive
    have edited := session.plan.map_edit_setStepLength length
    rw [if_neg positive] at edited
    obtain ⟨next, accepted, plan⟩ := Session.edit_of_map_plan edited
    exact ⟨next, accepted, by rw [plan]⟩
  scaled := by
    intro length change stride next accepted origin scale step
    exact reading.segments_of_stride stride accepted origin step

variable (R) in
/-- Where numbers are exact, a turtle with a scaled step that begins at the scaled and shifted start
ends every stroke at the scaled and shifted point, and it looks the same way in the end. So the
segments of a session are shifted with its start and, from an origin, scaled with its step. -/
theorem drawing_moves_and_scales :
    (∀ [Trigonometry R] (text : String) (angle length scale : R) (start shift : Point R),
      let drawing := interpret text angle length start
      let other := interpret text angle (scale * length) (start.placed scale shift)
      other.segments = drawing.segments.map (·.placed scale shift) ∧
        other.final.position = drawing.final.position.placed scale shift ∧
        other.final.heading = drawing.final.heading) ∧
    ∀ (reading : ExactReading R) (session : Session), reading.Follows session := by
  refine ⟨?_, ExactReading.follows⟩
  intro circle text angle length scale start shift
  exact interpret_placed angle length scale start shift text

/-- A plant that is moved to the left and up, and one at the origin with twice the step. -/
theorem plant_moves_and_scales :
    let reading := ExactReading.rational
    let session := Session.ofPreset .plant2
    let rooted : Session := { plan := { session.plan with start := .origin } }
    (∃ moved, session.edit (.setStart ⟨10, 20⟩) = .ok moved ∧
      reading.segments moved.plan =
        (reading.segments session.plan).map (List.map (·.placed 1 ⟨-690, -480⟩))) ∧
    ∃ longer, rooted.edit (.setStepLength 10) = .ok longer ∧
      reading.segments longer.plan =
        (reading.segments rooted.plan).map (List.map (·.placed 2 .origin)) := by
  intro reading session rooted
  obtain ⟨_, sessions⟩ := drawing_moves_and_scales ℚ
  have left : reading.value 10 - reading.value session.plan.start.x = -690 := by decide +kernel
  have up : reading.value 20 - reading.value session.plan.start.y = -480 := by decide +kernel
  refine ⟨?_, ?_⟩
  · obtain ⟨moved, accepted, placed⟩ := (sessions reading session).moved ⟨10, 20⟩
    rw [left, up] at placed
    exact ⟨moved, accepted, placed⟩
  · obtain ⟨longer, accepted, step⟩ := (sessions reading rooted).accepted 10 (by decide)
    refine ⟨longer, accepted, ?_⟩
    have origin : reading.value rooted.plan.start.x = 0 ∧ reading.value rooted.plan.start.y = 0 := by
      decide +kernel
    refine (sessions reading rooted).scaled 10 _ List.mem_cons_self longer accepted origin 2 ?_
    rw [step]
    decide +kernel

end Frond
