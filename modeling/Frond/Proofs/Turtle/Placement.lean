import Mathlib
import Frond.Proofs.Turtle.SideBySide

/-!
Drawings moved and scaled. As long as nothing is rounded, a turtle with a longer step that begins
elsewhere goes where the first one goes, only at another place and in another size.
-/

namespace Frond

def Segment.mapEnds {α β : Type} (f : Point α → Point β) (segment : Segment α) : Segment β :=
  ⟨f segment.start, f segment.stop⟩

theorem map_mapEnds_eq {α β γ : Type} {f : Point α → Point γ} {g : Point β → Point γ}
    {segments : List (Segment α)} {others : List (Segment β)}
    (beside : List.Forall₂ (Segment.Beside fun p q => g q = f p) segments others) :
    others.map (Segment.mapEnds g) = segments.map (Segment.mapEnds f) := by
  induction beside with
  | nil => rfl
  | cons first _ ih =>
      rw [List.map_cons, List.map_cons, ih, Segment.mapEnds, Segment.mapEnds, first.start,
        first.stop]

variable {R : Type} [CommRing R]

/-- Where a point comes to when it is scaled and then shifted. -/
def Point.placed (point : Point R) (scale : R) (shift : Point R) : Point R :=
  ⟨scale * point.x + shift.x, scale * point.y + shift.y⟩

def Segment.placed (segment : Segment R) (scale : R) (shift : Point R) : Segment R :=
  segment.mapEnds fun point => point.placed scale shift

section

variable [Trigonometry R] (angle length scale : R) (start shift : Point R)

theorem inStep_placed :
    InStep (fun p q => q = p.placed scale shift) (fun heading other => other = heading)
      angle length angle (scale * length) := by
  refine .of_read (fun _ => rfl) (fun _ => rfl) ?_
  rintro pose ⟨_, _⟩ rfl rfl
  simp only [Pose.ahead, Point.placed, Point.mk.injEq]
  constructor <;> ring

theorem interpret_placed (text : String) :
    let drawing := interpret text angle length start
    let other := interpret text angle (scale * length) (start.placed scale shift)
    other.segments = drawing.segments.map (·.placed scale shift) ∧
      other.final.position = drawing.final.position.placed scale shift ∧
      other.final.heading = drawing.final.heading := by
  intro drawing other
  have opening : start.placed scale shift = start.placed scale shift := rfl
  obtain ⟨segments, ⟨position, heading⟩, _, _⟩ :=
    interpret_beside (inStep_placed angle length scale shift) opening rfl text
  refine ⟨?_, position, heading⟩
  calc other.segments = other.segments.map (Segment.mapEnds id) := (List.map_id _).symm
    _ = drawing.segments.map (·.placed scale shift) := map_mapEnds_eq segments

end

end Frond
