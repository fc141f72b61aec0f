import Frond.Geometry.Point

/-!
Upright boxes, given by their upper left corner and their sides: the box around a drawing,
and the same box with a margin.
-/

namespace Frond

/-- Coordinates of which two can be compared for the lesser and the greater one. -/
class Extremes (α : Type) where
  least : α → α → α
  greatest : α → α → α

/-- A number always wins over something that is none, and of two equals, such as the zeros of either
sign, the second is kept. -/
instance : Extremes Float where
  least a b := if a.isNaN || b ≤ a then b else a
  greatest a b := if a.isNaN || a ≤ b then b else a

structure Box (α : Type) where
  x : α
  y : α
  width : α
  height : α
  deriving Repr

namespace Box

variable {α : Type} [Add α] [Sub α] [Zero α] [Extremes α]

/-- The box without extent at a point. -/
def ofPoint (p : Point α) : Box α := ⟨p.x, p.y, 0, 0⟩

def right (box : Box α) : α := box.x + box.width

def bottom (box : Box α) : α := box.y + box.height

/-- The least box around a box and a point. -/
def insert (box : Box α) (p : Point α) : Box α :=
  let x := Extremes.least box.x p.x
  let y := Extremes.least box.y p.y
  let right := Extremes.greatest box.right p.x
  let bottom := Extremes.greatest box.bottom p.y
  ⟨x, y, right - x, bottom - y⟩

/-- The box with a margin on every side. -/
def padded (box : Box α) (margin : α) : Box α :=
  ⟨box.x - margin, box.y - margin, box.width + (margin + margin), box.height + (margin + margin)⟩

/-- The least box around all ends of the segments, or the box at `fallback` if there are none. -/
def ofSegments (segments : List (Segment α)) (fallback : Point α) : Box α :=
  match segments.flatMap fun segment => [segment.start, segment.stop] with
  | [] => ofPoint fallback
  | first :: rest => rest.foldl insert (ofPoint first)

end Box

end Frond
