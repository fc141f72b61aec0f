import Mathlib
import Frond.Proofs.Geometry.Stretches
import Frond.Proofs.Session.Coherence
import Frond.Proofs.Settings.Judgement
import Frond.Proofs.Svg.Numbers
import Frond.Proofs.Turtle.Poses

/-!
The start of a drawing decides whether its numbers are numerals. A coordinate of the start that is
not finite reaches the view box and every point of the path. From a finite start a drawing has
finite points only, however long it is, and its view box is finite.
-/

namespace Frond

namespace Plan

/-- The drawing of a text by this plan, with any functions for sine and cosine. -/
def drawingBy (circle : Trigonometry Float) (plan : Plan) (text : String) : Drawing Float :=
  @interpret Float _ _ _ _ circle text plan.grammar.angle plan.stepLength.toFloat plan.start

/-- The document of a plan, with any functions for sine and cosine. -/
def renderBy (circle : Trigonometry Float) (plan : Plan) (style : Svg.Style) (palette : Palette) :
    Except Failure String := do
  let text ← plan.expanded
  return Svg.render (style.titled plan.grammar.name) palette plan.start
    (plan.drawingBy circle text).segments

theorem render_eq_renderBy (plan : Plan) (style : Svg.Style) (palette : Palette) :
    plan.render style palette = plan.renderBy instTrigonometryFloat style palette := by
  simp only [render, renderBy, segments]
  cases plan.expanded <;> rfl

end Plan

/-- Both coordinates are finite. -/
def Point.Finite (point : Point Float) : Prop :=
  point.x.isFinite = true ∧ point.y.isFinite = true

theorem isFinite_of_beq {a b : Float} (equal : (a == b) = true) (finite : b.isFinite = true) :
    a.isFinite = true := by
  obtain ⟨_, _, rfl | ⟨rfl, _⟩ | ⟨rfl, _⟩⟩ := Float.beq_iff_ne_nan_and_eq.mp equal
  · exact finite
  · rfl
  · rfl

theorem finite_defaultStart : defaultStart.Finite := by
  refine ⟨?_, ?_⟩ <;> decide +kernel

theorem finite_start_preparedPlan (preset : Preset) (settings : Settings) :
    (preparedPlan preset settings).start.Finite ↔ settings.start.Finite := by
  rw [preparedPlan]
  split
  case isTrue equal =>
    change (settings.start.x == defaultStart.x && settings.start.y == defaultStart.y) = true at equal
    obtain ⟨x, y⟩ := Bool.and_eq_true_iff.mp equal
    exact iff_of_true finite_defaultStart ⟨isFinite_of_beq x finite_defaultStart.1,
      isFinite_of_beq y finite_defaultStart.2⟩
  case isFalse => exact Iff.rfl

section

variable (circle : Trigonometry Float) {plan : Plan} {axis : Axis}

/-- A coordinate of the start that is not finite is not finite anywhere in the drawing. -/
theorem unbounded_ends (unbounded : (plan.start.at axis).isFinite = false) (text : String) :
    ∀ segment ∈ (plan.drawingBy circle text).segments,
      (segment.start.at axis).isFinite = false ∧ (segment.stop.at axis).isFinite = false := by
  have closed : @Pose.Closed Float _ _ _ circle plan.grammar.angle plan.stepLength.toFloat
      (fun pose => (pose.position.at axis).isFinite = false) := by
    refine ⟨fun _ good => good, fun _ good => good, ?_⟩
    intro pose good
    cases axis with
    | horizontal => exact not_isFinite_add good
    | vertical => exact not_isFinite_sub good
  intro segment drawn
  obtain ⟨⟨_, start⟩, _, stop⟩ := interpret_throughout closed unbounded text segment drawn
  exact ⟨start, stop⟩

theorem unbounded_viewBox (unbounded : (plan.start.at axis).isFinite = false) (style : Svg.Style)
    (text : String) :
    ((Svg.viewBox style plan.start (plan.drawingBy circle text).segments).low axis).isFinite =
      false := by
  have box : ((Box.ofSegments (plan.drawingBy circle text).segments plan.start).low axis).isFinite =
      false := by
    apply Box.ofSegments_induction (fun box : Box Float => (box.low axis).isFinite = false)
      (fun point => (point.at axis).isFinite = false)
    · intro point inside
      rw [Box.low_ofPoint, inside]
    · intro box point good inside
      rw [Box.low_insert]
      rcases least_eq_or (box.low axis) (point.at axis) with same | same
      · rw [same, good]
      · rw [same, inside]
    · exact unbounded_ends circle unbounded text
    · exact unbounded
  rw [Svg.viewBox, Box.low_padded]
  exact not_isFinite_sub box

end

/-- The sine and the cosine of what is finite lie between minus one and one. -/
structure Trigonometry.Bounded (circle : Trigonometry Float) : Prop where
  sin : ∀ heading : Float, heading.isFinite = true →
    -1.0 ≤ circle.sin heading ∧ circle.sin heading ≤ 1.0
  cos : ∀ heading : Float, heading.isFinite = true →
    -1.0 ≤ circle.cos heading ∧ circle.cos heading ≤ 1.0

theorem small_angle (preset : Preset) : Small preset.grammar.angle := by
  apply small_of_between
  · cases preset <;> decide +kernel
  · cases preset <;> decide +kernel

section

variable {circle : Trigonometry Float} (bounded : circle.Bounded) {plan : Plan} {axis : Axis}
  {region : ℚ → Prop} (closed : Region region) (turns : Small plan.grammar.angle)

include bounded closed turns

/-- A turtle does not leave a region: headings stay finite, so that no step is long. -/
theorem among_ends (among : Among region (plan.start.at axis)) (text : String) :
    ∀ segment ∈ (plan.drawingBy circle text).segments,
      Among region (segment.start.at axis) ∧ Among region (segment.stop.at axis) := by
  have small : @Pose.Closed Float _ _ _ circle plan.grammar.angle plan.stepLength.toFloat
      (fun pose => Among (|·| ≤ 2 ^ (100 : ℤ)) pose.heading ∧
        Among region (pose.position.at axis)) := by
    refine ⟨?_, ?_, ?_⟩
    · intro pose ⟨heading, position⟩
      exact ⟨.add region_near heading turns, position⟩
    · intro pose ⟨heading, position⟩
      exact ⟨.sub region_near heading turns, position⟩
    · intro pose ⟨heading, position⟩
      refine ⟨heading, ?_⟩
      cases axis with
      | horizontal =>
          obtain ⟨above, below⟩ := bounded.sin pose.heading heading.isFinite
          exact .add closed position (small_mul _ above below)
      | vertical =>
          obtain ⟨above, below⟩ := bounded.cos pose.heading heading.isFinite
          exact .sub closed position (small_mul _ above below)
  have upright : Among (|·| ≤ 2 ^ (100 : ℤ)) (0 : Float) :=
    ⟨0, denotes_zero, abs_zero.trans_le (two_zpow_pos _).le⟩
  intro segment drawn
  obtain ⟨⟨_, _, start⟩, _, _, stop⟩ := interpret_throughout small ⟨upright, among⟩ text segment drawn
  exact ⟨start, stop⟩

theorem stretched_ofSegments (among : Among region (plan.start.at axis)) (text : String) :
    (Box.ofSegments (plan.drawingBy circle text).segments plan.start).Stretched region axis := by
  apply Box.ofSegments_induction (Box.Stretched region axis)
    (fun point => Among region (point.at axis))
  · intro point inside
    exact .ofPoint closed inside
  · intro box point stretched inside
    exact stretched.insert closed inside
  · exact among_ends bounded closed turns among text
  · exact among

end

/-- All numbers of a drawing are finite exactly when its start is. -/
theorem isFinite_numbers_iff {circle : Trigonometry Float} (bounded : circle.Bounded) {plan : Plan}
    (turns : Small plan.grammar.angle) {style : Svg.Style} (padding : Small style.padding)
    (margins : Small (style.padding + style.padding)) (text : String) :
    (∀ value ∈ Svg.numbers (Svg.viewBox style plan.start (plan.drawingBy circle text).segments)
      (plan.drawingBy circle text).segments, value.isFinite = true) ↔ plan.start.Finite := by
  constructor
  · intro finite
    have coordinate (axis : Axis) : (plan.start.at axis).isFinite = true := by
      by_contra unbounded
      have lost := unbounded_viewBox circle (Bool.eq_false_of_not_eq_true unbounded) style text
      rw [finite _ ?_] at lost
      · cases lost
      · cases axis <;> simp [Svg.numbers, Box.numbers, Box.low]
    exact ⟨coordinate .horizontal, coordinate .vertical⟩
  · rintro ⟨x, y⟩
    obtain ⟨across, acrossClosed, acrossStart⟩ :
        ∃ region, Region region ∧ Among region (plan.start.at .horizontal) := exists_region x
    obtain ⟨down, downClosed, downStart⟩ :
        ∃ region, Region region ∧ Among region (plan.start.at .vertical) := exists_region y
    have columns := among_ends bounded acrossClosed turns acrossStart text
    have rows := among_ends bounded downClosed turns downStart text
    have width := (stretched_ofSegments bounded acrossClosed turns acrossStart text).isFinite_padded
      acrossClosed padding margins
    have height := (stretched_ofSegments bounded downClosed turns downStart text).isFinite_padded
      downClosed padding margins
    rw [← Svg.viewBox] at width height
    generalize (plan.drawingBy circle text).segments = segments at columns rows width height ⊢
    generalize Svg.viewBox style plan.start segments = box at width height ⊢
    intro value written
    rw [Svg.numbers, List.mem_append, List.mem_append, or_self] at written
    rcases written with side | coordinate
    · simp only [Box.numbers, List.mem_cons, List.not_mem_nil, or_false] at side
      rcases side with rfl | rfl | rfl | rfl
      · exact width.1
      · exact height.1
      · exact width.2
      · exact height.2
    · obtain ⟨segment, drawn, point, rfl | rfl, rfl | rfl⟩ :=
        Svg.mem_numbers_commandsFrom coordinate
      · exact (columns segment drawn).1.isFinite
      · exact (rows segment drawn).1.isFinite
      · exact (columns segment drawn).2.isFinite
      · exact (rows segment drawn).2.isFinite

theorem Plan.plain_words_iff {circle : Trigonometry Float} (bounded : circle.Bounded) {plan : Plan}
    (turns : Small plan.grammar.angle) {text : String} (grown : plan.expanded = .ok text)
    (palette : Palette) :
    ∃ document words, plan.renderBy circle {} palette = .ok document ∧
      Svg.numberWords document = some words ∧
      ((∀ word ∈ words, Plain word) ↔ plan.start.Finite) := by
  have harmless := Svg.harmless_titled plan.grammar.name
  have padding : Small ({} : Svg.Style).padding :=
    small_of_between (by decide +kernel) (by decide +kernel)
  have margins : Small (({} : Svg.Style).padding + ({} : Svg.Style).padding) :=
    small_of_between (by decide +kernel) (by decide +kernel)
  have finite := isFinite_numbers_iff bounded turns padding margins text
  rw [← Svg.viewBox_titled _ plan.grammar.name] at finite
  have read (viewBox : Box Float) (segments : List (Segment Float)) :
      Svg.numberWords (Svg.renderIn (({} : Svg.Style).titled plan.grammar.name) palette viewBox
        segments) = some ((Svg.numbers viewBox segments).map numeralText) :=
    Svg.numberWords_renderIn harmless
  refine ⟨_, _, bind_eq_ok_iff.mpr ⟨text, grown, rfl⟩, read _ _, ?_⟩
  rw [← finite]
  exact Svg.plain_words_iff harmless (read _ _)

/-- The numbers of a document are plain numerals exactly when the drawing begins at a finite point.
Nothing else in a configuration has a part in that. -/
theorem plain_words_iff_finite_start {circle : Trigonometry Float} (bounded : circle.Bounded)
    {preset : Preset} {settings : Settings} {session : Session}
    (prepared : prepare preset settings = .ok session) :
    (session.render {} settings.palette).map Prod.fst =
        session.plan.renderBy instTrigonometryFloat {} settings.palette ∧
      ∃ document words, session.plan.renderBy circle {} settings.palette = .ok document ∧
        Svg.numberWords document = some words ∧
        ((∀ word ∈ words, Plain word) ↔ settings.start.Finite) := by
  obtain ⟨permitted, _, rfl⟩ := prepare_eq_ok_iff.mp prepared
  obtain ⟨text, grown⟩ := preset.expands permitted
  have expanded : (preparedPlan preset settings).expanded = .ok text := grown
  have turns : Small (preparedPlan preset settings).grammar.angle := small_angle preset
  constructor
  · rw [← Plan.render_eq_renderBy]
    exact (Session.render_reads (Session.coherent_of_empty rfl rfl) _ _).map_fst
  · rw [← finite_start_preparedPlan preset settings]
    exact Plan.plain_words_iff bounded turns expanded settings.palette

/-- The sine and the cosine of a turtle that does not turn. -/
@[reducible] def upwards : Trigonometry Float := ⟨fun _ => 0, fun _ => 1⟩

/-- The first line of the dragon, from the usual start. -/
theorem dragon_plain :
    ∃ session, upwards.Bounded ∧ prepare .dragon { iterations := 0 } = .ok session ∧
      ∃ document words, session.plan.renderBy upwards {} {} = .ok document ∧
        Svg.numberWords document = some words ∧ ∀ word ∈ words, Plain word := by
  have zero : -1.0 ≤ (0 : Float) ∧ (0 : Float) ≤ 1.0 := by
    constructor <;> decide +kernel
  have one : -1.0 ≤ (1 : Float) ∧ (1 : Float) ≤ 1.0 := by
    constructor <;> decide +kernel
  have bounded : upwards.Bounded := ⟨fun _ _ => zero, fun _ _ => one⟩
  have prepared : prepare .dragon { iterations := 0 } =
      .ok { plan := preparedPlan .dragon { iterations := 0 } } :=
    prepare_eq_ok_iff.mpr ⟨by decide, by decide, rfl⟩
  obtain ⟨_, document, words, rendered, read, plain⟩ :=
    plain_words_iff_finite_start bounded prepared
  exact ⟨_, bounded, prepared, document, words, rendered, read, plain.mpr finite_defaultStart⟩

/-- A configuration that begins a drawing infinitely far to the right. -/
def farText : String := "[drawing]\niterations = 0\nstart = [inf, 0]\n"

def farSettings : Settings :=
  { iterations := 0, start := ⟨Binary64.infinity false, 0⟩ }

set_option maxRecDepth 100000 in
theorem ofText_farText : Settings.ofText farText = .ok farSettings := by
  have table : Toml.read? farText = some [("drawing", .table .opened [("iterations", .integer 0),
      ("start", .list [.float (Binary64.infinity false), .integer 0])])] := by
    cbv
  rw [Settings.ofText, Choices.read?, table]
  rfl

/-- The far start is accepted and opens a session, and the view box is nowhere. -/
theorem far_start_not_plain :
    ∃ settings session document next words,
      Settings.ofText farText = .ok settings ∧ prepare .plant1 settings = .ok session ∧
        session.render {} settings.palette = .ok (document, next) ∧
        Svg.numberWords document = some words ∧ ∃ word ∈ words, ¬Plain word := by
  have prepared : prepare .plant1 farSettings = .ok { plan := preparedPlan .plant1 farSettings } :=
    prepare_eq_ok_iff.mpr ⟨by decide, by decide, rfl⟩
  have moved : (farSettings.start == defaultStart) = false := by decide +kernel
  have start : (preparedPlan .plant1 farSettings).start = farSettings.start := by
    rw [preparedPlan, moved]
    rfl
  obtain ⟨next, drawn⟩ : ∃ next,
      Session.drawn { plan := preparedPlan .plant1 farSettings } = .ok ([], next) := ⟨_, rfl⟩
  have corner : numeralText (Binary64.infinity false - 20.0) = "inf" := by decide +kernel
  refine ⟨farSettings, _, _, next, _, ofText_farText, prepared,
    Session.render_eq_ok_iff.mpr ⟨[], drawn, rfl⟩,
    Svg.numberWords_renderIn (Svg.harmless_titled _), "inf", ?_, ?_⟩
  · rw [Session.titled, Svg.viewBox_titled, start, ← corner]
    exact List.mem_map_of_mem List.mem_cons_self
  · intro plain
    rcases plain.chars 'i' (by decide) with digit | point | minus
    · cases digit
    · cases point
    · cases minus

end Frond
