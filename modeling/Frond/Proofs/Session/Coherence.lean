import Frond.Session.Request

/-!
A session never answers from stale work. A text that is kept is what the plan expands to as it
stands, kept segments are what the plan draws, and every request preserves that, a refused one
included.
-/

namespace Frond

theorem bind_eq_ok_iff {ε α β : Type} {first : Except ε α} {next : α → Except ε β} {value : β} :
    (first >>= next) = .ok value ↔ ∃ found, first = .ok found ∧ next found = .ok value := by
  cases first with
  | error problem => exact ⟨nofun, nofun⟩
  | ok found => exact ⟨fun same => ⟨found, rfl, same⟩, fun ⟨_, rfl, same⟩ => same⟩

namespace Plan

/-- The segments of a plan, drawn with nothing kept from before. -/
def segments (plan : Plan) : Except Failure (List (Segment Float)) := do
  let text ← plan.expanded
  return (plan.drawing text).segments

/-- The finished drawing of a plan, with nothing kept from before. -/
def render (plan : Plan) (style : Svg.Style) (palette : Palette) : Except Failure String := do
  let segments ← plan.segments
  return Svg.render (style.titled plan.grammar.name) palette plan.start segments

/-- The frames of a plan, with nothing kept from before. -/
def frames (plan : Plan) (style : Svg.Style) (palette : Palette) : Except Failure Frames := do
  let segments ← plan.segments
  return Frames.ofSegments (style.titled plan.grammar.name) palette plan.start segments

theorem segments_eq_ok_iff {plan : Plan} {segments : List (Segment Float)} :
    plan.segments = .ok segments ↔
      ∃ text, plan.expanded = .ok text ∧ (plan.drawing text).segments = segments := by
  rw [Plan.segments, bind_eq_ok_iff]
  simp only [pure, Except.pure, Except.ok.injEq]

theorem expanded_congr {left right : Plan} (same : left.grammar = right.grammar) :
    left.expanded = right.expanded := by
  simp only [expanded, same]

end Plan

/-- An edit declares enough of the derived work stale: where it declares nothing the plan has not
changed, and where it declares only the segments the grammar has not. -/
def Edited.Declared (before : Plan) (edited : Edited) : Prop :=
  match edited.stale with
  | none => edited.plan = before
  | some .segments => edited.plan.grammar = before.grammar
  | some .text => True

namespace Plan

theorem unchanged_declared (plan : Plan) : plan.unchanged.Declared plan := rfl

theorem deepen_declared (plan : Plan) (iterations : UInt32) :
    (plan.deepen iterations).Declared plan := trivial

theorem stride_declared (plan : Plan) (length : UInt32) : (plan.stride length).Declared plan := rfl

theorem edit_declared {plan : Plan} {change : Edit} {edited : Edited}
    (accepted : plan.edit change = .ok edited) : edited.Declared plan := by
  cases change with
  | selectPreset preset => cases accepted; trivial
  | reset => cases accepted; trivial
  | setIterations iterations =>
      simp only [edit] at accepted
      split at accepted
      · cases accepted
      · split at accepted <;> cases accepted
        · exact plan.unchanged_declared
        · exact plan.deepen_declared iterations
  | increaseIterations =>
      cases accepted
      split
      · exact plan.deepen_declared _
      · exact plan.unchanged_declared
  | decreaseIterations =>
      cases accepted
      split
      · exact plan.deepen_declared _
      · exact plan.unchanged_declared
  | setSeed text => cases accepted; trivial
  | setRule symbol text => cases accepted; trivial
  | setAngle radians => cases accepted; trivial
  | setStepLength length =>
      simp only [edit] at accepted
      split at accepted
      · cases accepted
      · split at accepted <;> cases accepted
        · exact plan.unchanged_declared
        · exact plan.stride_declared length
  | increaseStepLength =>
      cases accepted
      split
      · exact plan.stride_declared _
      · exact plan.unchanged_declared
  | decreaseStepLength =>
      cases accepted
      split
      · exact plan.stride_declared _
      · exact plan.unchanged_declared
  | setStart start =>
      cases accepted
      split
      · exact plan.unchanged_declared
      · rfl

end Plan

namespace Session

/-- Whatever is kept is what the plan would give if it were built anew. -/
structure Coherent (session : Session) : Prop where
  text : ∀ text, session.text = some text → session.plan.expanded = .ok text
  segments : ∀ segments, session.segments = some segments →
    session.plan.segments = .ok segments

/-- Where no segments are kept, only the text can be stale. -/
theorem coherent_of_text {session : Session} (stale : session.segments = none)
    (fresh : ∀ text, session.text = some text → session.plan.expanded = .ok text) :
    session.Coherent := by
  refine ⟨fresh, ?_⟩
  intro segments kept
  rw [stale] at kept
  cases kept

theorem coherent_of_empty {session : Session} (noText : session.text = none)
    (noSegments : session.segments = none) : session.Coherent := by
  apply coherent_of_text noSegments
  intro text kept
  rw [noText] at kept
  cases kept

theorem ofGrammar_coherent (grammar : Grammar) : (ofGrammar grammar).Coherent :=
  coherent_of_empty rfl rfl

theorem discard_coherent {session : Session} (coherent : session.Coherent) (derived : Derived) :
    (session.discard derived).Coherent := by
  cases derived with
  | text => exact coherent_of_empty rfl rfl
  | segments => exact coherent_of_text rfl coherent.text

@[simp] theorem discard_plan (session : Session) (derived : Derived) :
    (session.discard derived).plan = session.plan := by
  cases derived <;> rfl

/-- The session after an edit that was carried out. -/
def after (session : Session) (edited : Edited) : Session :=
  match edited.stale with
  | some derived => { session with plan := edited.plan }.discard derived
  | none => { session with plan := edited.plan }

theorem edit_eq (session : Session) (change : Edit) :
    session.edit change = (session.plan.edit change).map session.after := by
  simp only [edit]
  cases session.plan.edit change <;> rfl

@[simp] theorem after_plan (session : Session) (edited : Edited) :
    (session.after edited).plan = edited.plan := by
  simp only [after]
  split <;> simp

theorem after_coherent {session : Session} (coherent : session.Coherent) {edited : Edited}
    (declared : edited.Declared session.plan) : (session.after edited).Coherent := by
  rcases edited with ⟨plan, _ | _ | _⟩
  · change plan = session.plan at declared
    subst declared
    exact coherent
  · exact coherent_of_empty rfl rfl
  · change plan.grammar = session.plan.grammar at declared
    apply coherent_of_text rfl
    intro text kept
    exact (Plan.expanded_congr declared).trans (coherent.text text kept)

theorem render_eq_ok_iff {session next : Session} {style : Svg.Style} {palette : Palette}
    {document : String} :
    session.render style palette = .ok (document, next) ↔
      ∃ segments, session.drawn = .ok (segments, next) ∧
        document = Svg.render (session.titled style) palette session.plan.start segments := by
  constructor
  · intro rendered
    obtain ⟨⟨segments, after⟩, drawn, written⟩ := bind_eq_ok_iff.mp rendered
    cases written
    exact ⟨segments, drawn, rfl⟩
  · rintro ⟨segments, drawn, rfl⟩
    exact bind_eq_ok_iff.mpr ⟨_, drawn, rfl⟩

theorem frames_eq_ok_iff {session next : Session} {style : Svg.Style} {palette : Palette}
    {frames : Frames} :
    session.frames style palette = .ok (frames, next) ↔
      ∃ segments, session.drawn = .ok (segments, next) ∧
        frames = .ofSegments (session.titled style) palette session.plan.start segments := by
  constructor
  · intro shown
    obtain ⟨⟨segments, after⟩, drawn, made⟩ := bind_eq_ok_iff.mp shown
    cases made
    exact ⟨segments, drawn, rfl⟩
  · rintro ⟨segments, drawn, rfl⟩
    exact bind_eq_ok_iff.mpr ⟨_, drawn, rfl⟩

/-- A read that gives what the plan gives when everything is built anew: the same failure, or the
same value together with a coherent session of the same plan. -/
inductive Reads {α : Type} (session : Session) :
    Except Failure α → Except Failure (α × Session) → Prop
  | error (failure : Failure) : Reads session (.error failure) (.error failure)
  | ok (value : α) (next : Session) (plan : next.plan = session.plan) (coherent : next.Coherent) :
      Reads session (.ok value) (.ok (value, next))

theorem Reads.map {α β : Type} {session : Session} {fresh : Except Failure α}
    {kept : Except Failure (α × Session)} (reads : session.Reads fresh kept) (f : α → β) :
    session.Reads (do let value ← fresh; return f value)
      (do let (value, next) ← kept; return (f value, next)) := by
  cases reads with
  | error failure => exact .error failure
  | ok value next plan coherent => exact .ok (f value) next plan coherent

theorem Reads.map_fst {α : Type} {session : Session} {fresh : Except Failure α}
    {kept : Except Failure (α × Session)} (reads : session.Reads fresh kept) :
    kept.map Prod.fst = fresh := by
  cases reads <;> rfl

theorem expanded_reads {session : Session} (coherent : session.Coherent) :
    session.Reads session.plan.expanded session.expanded := by
  rcases session with ⟨plan, _ | text, segments⟩
  · change Reads _ _ (plan.expanded >>= _)
    cases built : plan.expanded with
    | error failure => exact .error failure
    | ok text =>
        refine .ok text ⟨plan, some text, segments⟩ rfl ⟨?_, coherent.segments⟩
        intro other kept
        cases kept
        exact built
  · have built : plan.expanded = .ok text := coherent.text text rfl
    rw [built]
    exact .ok text _ rfl coherent

/-- The segments may have to be drawn from a text that is kept or from one that is built on the
way. It is the text of the plan in either case. -/
theorem drawn_reads {session : Session} (coherent : session.Coherent) :
    session.Reads session.plan.segments session.drawn := by
  cases kept : session.segments with
  | some segments =>
      simp only [drawn, kept, coherent.segments segments kept]
      exact .ok segments session rfl coherent
  | none =>
      have text := expanded_reads coherent
      simp only [drawn, kept, Plan.segments]
      generalize built : session.plan.expanded = fresh at text ⊢
      generalize session.expanded = read at text ⊢
      cases text with
      | error failure => exact .error failure
      | ok text next plan coherent =>
          rw [← plan] at built ⊢
          refine .ok _ { next with segments := some _ } plan ⟨coherent.text, ?_⟩
          intro segments drawn
          cases drawn
          simp only [Plan.segments, built]
          rfl

theorem render_reads {session : Session} (coherent : session.Coherent) (style : Svg.Style)
    (palette : Palette) :
    session.Reads (session.plan.render style palette) (session.render style palette) :=
  (drawn_reads coherent).map _

theorem frames_reads {session : Session} (coherent : session.Coherent) (style : Svg.Style)
    (palette : Palette) :
    session.Reads (session.plan.frames style palette) (session.frames style palette) :=
  (drawn_reads coherent).map _

end Session

end Frond
