import Frond.Geometry.Box

/-!
The box around a drawing, point by point. What holds of the box at any point of a set and is kept
when one more point of the set is put in holds of the box around all ends of segments. A box grows
on both axes alike, and on each of them by the coordinates there alone.
-/

namespace Frond

inductive Axis where
  | horizontal
  | vertical

variable {α : Type}

def Point.at (axis : Axis) (point : Point α) : α :=
  match axis with
  | .horizontal => point.x
  | .vertical => point.y

namespace Box

/-- Where a box begins on an axis. -/
def low (axis : Axis) (box : Box α) : α :=
  match axis with
  | .horizontal => box.x
  | .vertical => box.y

/-- How far a box extends along an axis. -/
def extent (axis : Axis) (box : Box α) : α :=
  match axis with
  | .horizontal => box.width
  | .vertical => box.height

@[simp] theorem low_ofPoint [Zero α] (axis : Axis) (point : Point α) :
    (ofPoint point).low axis = point.at axis := by
  cases axis <;> rfl

@[simp] theorem extent_ofPoint [Zero α] (axis : Axis) (point : Point α) :
    (ofPoint point).extent axis = 0 := by
  cases axis <;> rfl

variable [Add α] [Sub α]

@[simp] theorem low_padded (axis : Axis) (box : Box α) (margin : α) :
    (box.padded margin).low axis = box.low axis - margin := by
  cases axis <;> rfl

@[simp] theorem extent_padded (axis : Axis) (box : Box α) (margin : α) :
    (box.padded margin).extent axis = box.extent axis + (margin + margin) := by
  cases axis <;> rfl

variable [Extremes α]

@[simp] theorem low_insert (axis : Axis) (box : Box α) (point : Point α) :
    (box.insert point).low axis = Extremes.least (box.low axis) (point.at axis) := by
  cases axis <;> rfl

@[simp] theorem extent_insert (axis : Axis) (box : Box α) (point : Point α) :
    (box.insert point).extent axis =
      Extremes.greatest (box.low axis + box.extent axis) (point.at axis) -
        Extremes.least (box.low axis) (point.at axis) := by
  cases axis <;> rfl

theorem foldl_insert {good : Box α → Prop} {inside : Point α → Prop}
    (insert : ∀ box point, good box → inside point → good (box.insert point)) {box : Box α}
    (first : good box) {points : List (Point α)} (all : ∀ point ∈ points, inside point) :
    good (points.foldl Box.insert box) := by
  induction points generalizing box with
  | nil => exact first
  | cons point rest ih =>
      apply ih
      · exact insert box point first (all point List.mem_cons_self)
      · intro other member
        exact all other (List.mem_cons_of_mem _ member)

theorem ofSegments_induction [Zero α] (good : Box α → Prop) (inside : Point α → Prop)
    (point : ∀ point, inside point → good (.ofPoint point))
    (insert : ∀ box point, good box → inside point → good (box.insert point))
    {segments : List (Segment α)} (ends : ∀ segment ∈ segments, inside segment.start ∧
      inside segment.stop) {fallback : Point α} (alone : inside fallback) :
    good (ofSegments segments fallback) := by
  have all : ∀ point ∈ segments.flatMap fun segment => [segment.start, segment.stop],
      inside point := by
    intro point member
    obtain ⟨segment, drawn, stands⟩ := List.mem_flatMap.mp member
    simp only [List.mem_cons, List.not_mem_nil, or_false] at stands
    rcases stands with rfl | rfl
    · exact (ends segment drawn).1
    · exact (ends segment drawn).2
  rw [ofSegments]
  split
  case h_1 => exact point fallback alone
  case h_2 first rest listed =>
    rw [listed] at all
    apply foldl_insert insert
    · exact point first (all first List.mem_cons_self)
    · intro other member
      exact all other (List.mem_cons_of_mem _ member)

end Box

end Frond
