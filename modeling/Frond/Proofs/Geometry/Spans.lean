import Mathlib
import Frond.Proofs.Geometry.Boxes

/-!
Boxes with exact coordinates. A box keeps its extent and not its far edges, but as long as nothing
is rounded these are found again, and the box around a drawing reaches on each axis from the least
to the greatest coordinate of an end. So it is the same in whatever order and direction lines are
drawn.
-/

namespace Frond

instance : Extremes ℚ where
  least := min
  greatest := max

/-- The ends of segments. -/
def ends {α : Type} (segments : List (Segment α)) : Set (Point α) :=
  {p | ∃ segment ∈ segments, p = segment.start ∨ p = segment.stop}

def Segment.reversed {α : Type} (segment : Segment α) : Segment α :=
  ⟨segment.stop, segment.start⟩

theorem ends_cons {α : Type} (segment : Segment α) (rest : List (Segment α)) :
    ends (segment :: rest) = {segment.start, segment.stop} ∪ ends rest := by
  ext p
  simp [ends]

theorem ends_mono {α : Type} {part segments : List (Segment α)} (inside : part ⊆ segments) :
    ends part ⊆ ends segments := by
  rintro p ⟨segment, drawn, stands⟩
  exact ⟨segment, inside drawn, stands⟩

theorem ends_of_perm {α : Type} {segments others : List (Segment α)}
    (same : segments.Perm others) : ends segments = ends others :=
  (ends_mono same.subset).antisymm (ends_mono same.symm.subset)

/-- Segments may be drawn in either direction. -/
theorem ends_of_reversed {α : Type} {segments turned : List (Segment α)}
    (alike : List.Forall₂ (fun segment other => other = segment ∨ other = segment.reversed)
      segments turned) : ends turned = ends segments := by
  induction alike with
  | nil => rfl
  | @cons segment other rest others same _ ih =>
      rw [ends_cons, ends_cons, ih]
      rcases same with rfl | rfl
      · rfl
      · rw [Segment.reversed, Set.pair_comm]

theorem setOf_mem_flatMap {α : Type} (segments : List (Segment α)) :
    {p | p ∈ segments.flatMap fun segment => [segment.start, segment.stop]} = ends segments := by
  ext p
  simp [ends]

namespace Box

/-- Where a box ends on an axis. -/
def high (axis : Axis) (box : Box ℚ) : ℚ :=
  match axis with
  | .horizontal => box.right
  | .vertical => box.bottom

theorem high_eq (axis : Axis) (box : Box ℚ) : box.high axis = box.low axis + box.extent axis := by
  cases axis <;> rfl

/-- A point lies in a box or on an edge of it. -/
def Contains (box : Box ℚ) (point : Point ℚ) : Prop :=
  ∀ axis, box.low axis ≤ point.at axis ∧ point.at axis ≤ box.high axis

/-- A box lies in another one. -/
def Within (inner outer : Box ℚ) : Prop :=
  ∀ axis, outer.low axis ≤ inner.low axis ∧ inner.high axis ≤ outer.high axis

/-- On each axis a box reaches from the least to the greatest coordinate of points. -/
structure Spans (box : Box ℚ) (points : Set (Point ℚ)) : Prop where
  low : ∀ axis, IsLeast (Point.at axis '' points) (box.low axis)
  high : ∀ axis, IsGreatest (Point.at axis '' points) (box.high axis)

theorem eq_of_edges {box other : Box ℚ} (low : ∀ axis, box.low axis = other.low axis)
    (high : ∀ axis, box.high axis = other.high axis) : box = other := by
  have extent (axis : Axis) : box.extent axis = other.extent axis := by
    have edge := high axis
    rw [high_eq, high_eq, low axis] at edge
    exact add_left_cancel edge
  cases box
  cases other
  congr
  · exact low .horizontal
  · exact low .vertical
  · exact extent .horizontal
  · exact extent .vertical

@[simp] theorem high_ofPoint (axis : Axis) (point : Point ℚ) :
    (ofPoint point).high axis = point.at axis := by
  rw [high_eq, low_ofPoint, extent_ofPoint, add_zero]

@[simp] theorem high_insert (axis : Axis) (box : Box ℚ) (point : Point ℚ) :
    (box.insert point).high axis = max (box.high axis) (point.at axis) := by
  rw [high_eq, low_insert, extent_insert, add_sub_cancel, ← high_eq]
  rfl

@[simp] theorem high_padded (axis : Axis) (box : Box ℚ) (margin : ℚ) :
    (box.padded margin).high axis = box.high axis + margin := by
  rw [high_eq, high_eq, low_padded, extent_padded]
  ring

namespace Spans

variable {box other : Box ℚ} {points more : Set (Point ℚ)}

theorem ofPoint (point : Point ℚ) : (Box.ofPoint point).Spans {point} := by
  constructor
  · intro axis
    simp
  · intro axis
    simp

theorem insert (spans : box.Spans points) (point : Point ℚ) :
    (box.insert point).Spans (Insert.insert point points) := by
  constructor
  · intro axis
    rw [Set.image_insert_eq, low_insert]
    have least := (spans.low axis).insert (point.at axis)
    rw [min_comm] at least
    exact least
  · intro axis
    rw [Set.image_insert_eq, high_insert, max_comm]
    exact (spans.high axis).insert (point.at axis)

theorem foldl_insert (spans : box.Spans points) (list : List (Point ℚ)) :
    (list.foldl Box.insert box).Spans (points ∪ {p | p ∈ list}) := by
  induction list generalizing box points with
  | nil => simpa using spans
  | cons point rest ih =>
      have next := ih (spans.insert point)
      have same : Insert.insert point points ∪ {p | p ∈ rest} =
          points ∪ {p | p ∈ point :: rest} := by
        ext p
        simp only [Set.mem_union, Set.mem_insert_iff, Set.mem_ofPred_eq, List.mem_cons]
        tauto
      rw [same] at next
      exact next

/-- Only one box reaches just as far as points do. -/
theorem unique (spans : box.Spans points) (same : other.Spans points) : box = other := by
  apply eq_of_edges
  · intro axis
    exact (spans.low axis).unique (same.low axis)
  · intro axis
    exact (spans.high axis).unique (same.high axis)

theorem contains (spans : box.Spans points) {point : Point ℚ} (member : point ∈ points) :
    box.Contains point := by
  intro axis
  have coordinate := Set.mem_image_of_mem (Point.at axis) member
  exact ⟨(spans.low axis).2 coordinate, (spans.high axis).2 coordinate⟩

theorem within (spans : box.Spans points) (around : ∀ p ∈ points, other.Contains p) :
    box.Within other := by
  intro axis
  obtain ⟨p, first, low⟩ := (spans.low axis).1
  obtain ⟨q, last, high⟩ := (spans.high axis).1
  rw [← low, ← high]
  exact ⟨(around p first axis).1, (around q last axis).2⟩

theorem low_le_high (spans : box.Spans points) (axis : Axis) : box.low axis ≤ box.high axis :=
  (spans.low axis).2 (spans.high axis).1

theorem extent_nonneg (spans : box.Spans points) (axis : Axis) : 0 ≤ box.extent axis := by
  have reaches := spans.low_le_high axis
  rw [high_eq] at reaches
  linarith

end Spans

/-- The box around a drawing reaches just as far as the ends of the segments. -/
theorem spans_ofSegments {segments : List (Segment ℚ)} (drawn : segments ≠ [])
    (fallback : Point ℚ) : (ofSegments segments fallback).Spans (ends segments) := by
  obtain ⟨first, rest, rfl⟩ := List.exists_cons_of_ne_nil drawn
  have spans := (Spans.ofPoint first.start).foldl_insert
    (first.stop :: rest.flatMap fun segment => [segment.start, segment.stop])
  have same : {first.start} ∪
      {p | p ∈ first.stop :: rest.flatMap fun segment => [segment.start, segment.stop]} =
        ends (first :: rest) := by
    rw [← setOf_mem_flatMap]
    ext p
    simp
  rw [same] at spans
  exact spans

/-- The box is the same in whatever order and from whichever ends segments are drawn. -/
theorem ofSegments_of_turned {segments turned others : List (Segment ℚ)} (drawn : segments ≠ [])
    (alike : List.Forall₂ (fun segment other => other = segment ∨ other = segment.reversed)
      segments turned)
    (same : turned.Perm others) (fallback elsewhere : Point ℚ) :
    ofSegments others elsewhere = ofSegments segments fallback := by
  have ends : ends others = ends segments :=
    (ends_of_perm same).symm.trans (ends_of_reversed alike)
  have drawn' : others ≠ [] := by
    intro none
    have length := alike.length_eq.trans same.length_eq
    rw [none] at length
    exact drawn (List.eq_nil_of_length_eq_zero length)
  have spans := spans_ofSegments drawn' elsewhere
  rw [ends] at spans
  exact spans.unique (spans_ofSegments drawn fallback)

/-- Without segments there is a box at the point given for that, which may lie elsewhere. -/
theorem ofSegments_within_iff {segments part : List (Segment ℚ)} (drawn : segments ≠ [])
    (inside : part.Sublist segments) (fallback : Point ℚ) :
    (ofSegments part fallback).Within (ofSegments segments fallback) ↔
      part ≠ [] ∨ (ofSegments segments fallback).Contains fallback := by
  have spans := spans_ofSegments drawn fallback
  cases part with
  | nil =>
      have point : ofSegments ([] : List (Segment ℚ)) fallback = ofPoint fallback := rfl
      simp [point, Within, Contains]
  | cons first rest =>
      have some : first :: rest ≠ [] := List.cons_ne_nil first rest
      refine iff_of_true ?_ (.inl some)
      apply (spans_ofSegments some fallback).within
      intro p member
      exact spans.contains (ends_mono inside.subset member)

theorem within_padded (box : Box ℚ) {margin : ℚ} (positive : 0 ≤ margin) :
    box.Within (box.padded margin) := by
  intro axis
  rw [low_padded, high_padded]
  constructor <;> linarith

/-- How the box around segments lies, with exact coordinates. -/
structure Exact (segments : List (Segment ℚ)) (fallback : Point ℚ) : Prop where
  spans : (ofSegments segments fallback).Spans (ends segments)
  contains : ∀ p ∈ ends segments, (ofSegments segments fallback).Contains p
  least : ∀ box : Box ℚ, (∀ p ∈ ends segments, box.Contains p) →
    (ofSegments segments fallback).Within box
  extent : 0 ≤ (ofSegments segments fallback).width ∧ 0 ≤ (ofSegments segments fallback).height
  same : ∀ (turned others : List (Segment ℚ)) (elsewhere : Point ℚ),
    List.Forall₂ (fun segment other => other = segment ∨ other = segment.reversed)
      segments turned → turned.Perm others →
    ofSegments others elsewhere = ofSegments segments fallback
  none : ofSegments [] fallback = ofPoint fallback
  part : ∀ part : List (Segment ℚ), part.Sublist segments →
    ((ofSegments part fallback).Within (ofSegments segments fallback) ↔
      part ≠ [] ∨ (ofSegments segments fallback).Contains fallback)
  padded : ∀ margin, 0 ≤ margin →
    (ofSegments segments fallback).Within ((ofSegments segments fallback).padded margin) ∧
      ∀ axis,
        ((ofSegments segments fallback).padded margin).low axis =
          (ofSegments segments fallback).low axis - margin ∧
        ((ofSegments segments fallback).padded margin).high axis =
          (ofSegments segments fallback).high axis + margin

/-- The box around segments is the least that contains their ends, whatever their order, and a
margin is added to it on every side. The box around some of them lies in it, as long as there are
any. -/
theorem exact_ofSegments {segments : List (Segment ℚ)} (drawn : segments ≠ [])
    (fallback : Point ℚ) : Exact segments fallback where
  spans := spans_ofSegments drawn fallback
  contains := fun _ => (spans_ofSegments drawn fallback).contains
  least := fun _ => (spans_ofSegments drawn fallback).within
  extent := ⟨(spans_ofSegments drawn fallback).extent_nonneg .horizontal,
    (spans_ofSegments drawn fallback).extent_nonneg .vertical⟩
  same := by
    intro turned others elsewhere alike same
    exact ofSegments_of_turned drawn alike same fallback elsewhere
  none := rfl
  part := by
    intro part inside
    exact ofSegments_within_iff drawn inside fallback
  padded := by
    intro margin positive
    refine ⟨within_padded _ positive, ?_⟩
    intro axis
    exact ⟨low_padded axis _ margin, high_padded axis _ margin⟩

/-- Two lines of which one is turned around and drawn first. -/
theorem exact_two_lines :
    let segments : List (Segment ℚ) := [⟨⟨0, 0⟩, ⟨10, -5⟩⟩, ⟨⟨10, -5⟩, ⟨-2, 3⟩⟩]
    let box : Box ℚ := ⟨-2, -5, 12, 8⟩
    segments ≠ [] ∧ ofSegments segments .origin = box ∧ Exact segments .origin ∧
      ofSegments [⟨⟨-2, 3⟩, ⟨10, -5⟩⟩, ⟨⟨0, 0⟩, ⟨10, -5⟩⟩] .origin = box ∧
      (ofSegments [⟨⟨10, -5⟩, ⟨-2, 3⟩⟩] .origin).Within box ∧ box.Within (box.padded 20) := by
  intro segments box
  have drawn : segments ≠ [] := List.cons_ne_nil _ _
  have exact := exact_ofSegments drawn .origin
  have value : ofSegments segments .origin = box := by
    apply eq_of_edges
    · intro axis
      cases axis <;> decide +kernel
    · intro axis
      cases axis <;> decide +kernel
  have turned : List.Forall₂ (fun segment other => other = segment ∨ other = segment.reversed)
      segments [⟨⟨0, 0⟩, ⟨10, -5⟩⟩, ⟨⟨-2, 3⟩, ⟨10, -5⟩⟩] :=
    .cons (.inl rfl) (.cons (.inr rfl) .nil)
  have last : [⟨⟨10, -5⟩, ⟨-2, 3⟩⟩].Sublist segments := (List.Sublist.refl _).cons _
  refine ⟨drawn, value, exact, ?_, ?_, ?_⟩
  · rw [← value]
    exact exact.same _ _ _ turned (.swap _ _ _)
  · rw [← value]
    exact (exact.part _ last).mpr (.inl (List.cons_ne_nil _ _))
  · rw [← value]
    exact (exact.padded 20 (by norm_num)).1

/-- No segment is a part of any drawing, but its box lies where it is told to. -/
theorem empty_part_not_within :
    let line : Segment ℚ := ⟨⟨0, 0⟩, ⟨0, 0⟩⟩
    [].Sublist [line] ∧ ¬(ofSegments [] ⟨5, 5⟩).Within (ofSegments [line] ⟨5, 5⟩) := by
  intro line
  refine ⟨List.nil_sublist _, ?_⟩
  intro within
  have right := (within .horizontal).2
  revert right
  decide +kernel

end Box

end Frond
