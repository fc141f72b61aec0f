import Frond.Number.Hypotenuse

/-!
Points and line segments of the plane. Coordinates are of any type, so that the same
definitions serve doubles and exact numbers; `y` grows downwards.
-/

namespace Frond

structure Point (α : Type) where
  x : α
  y : α
  deriving BEq, Repr

structure Segment (α : Type) where
  start : Point α
  stop : Point α
  deriving BEq, Repr

namespace Point

def origin {α : Type} [Zero α] : Point α := ⟨0, 0⟩

def distance (p q : Point Float) : Float := hypotenuse (p.x - q.x) (p.y - q.y)

end Point

def Segment.length (segment : Segment Float) : Float := segment.start.distance segment.stop

end Frond
