import Mathlib
import Frond.Proofs.Turtle.Continuation

/-!
Two turtles side by side. They go along one word, each with its own angle and its own length, and
with numbers of its own. If turning keeps their headings together, and going ahead their positions,
then they stay together: their poses, those on their stacks and the ends of what they draw.
-/

namespace Frond

variable {α β : Type} (near : Point α → Point β → Prop) (facing : α → β → Prop)

structure Pose.Beside (pose : Pose α) (other : Pose β) : Prop where
  position : near pose.position other.position
  heading : facing pose.heading other.heading

structure Segment.Beside (segment : Segment α) (other : Segment β) : Prop where
  start : near segment.start other.start
  stop : near segment.stop other.stop

structure Walk.Beside (walk : Walk α) (other : Walk β) : Prop where
  pose : Pose.Beside near facing walk.pose other.pose
  saved : List.Forall₂ (Pose.Beside near facing) walk.saved.poses other.saved.poses
  segments : List.Forall₂ (Segment.Beside near) walk.segments.toList other.segments.toList
  underflows : walk.underflows = other.underflows

structure Drawing.Beside (drawing : Drawing α) (other : Drawing β) : Prop where
  segments : List.Forall₂ (Segment.Beside near) drawing.segments other.segments
  final : Pose.Beside near facing drawing.final other.final
  underflows : drawing.underflows = other.underflows
  leftover : drawing.leftover = other.leftover

variable {near facing} {walk : Walk α} {other : Walk β}

theorem Walk.restore_beside (beside : Walk.Beside near facing walk other) :
    Walk.Beside near facing walk.restore other.restore := by
  have paired := beside.saved
  generalize saved : walk.saved.poses = poses at paired
  generalize savedToo : other.saved.poses = others at paired
  cases paired with
  | nil =>
      rw [restore_of_nil saved, restore_of_nil savedToo]
      exact ⟨beside.pose, beside.saved, beside.segments, congrArg (· + 1) beside.underflows⟩
  | cons pose rest =>
      rw [restore_of_cons saved, restore_of_cons savedToo]
      exact ⟨pose, rest, beside.segments, beside.underflows⟩

variable [Add α] [Sub α] [Mul α] [Trigonometry α] [Add β] [Sub β] [Mul β] [Trigonometry β]

variable (near facing) in
/-- Angles and lengths that do not part two turtles. -/
structure InStep (angle length : α) (turn stride : β) : Prop where
  plus : ∀ {heading other}, facing heading other → facing (heading + angle) (other + turn)
  minus : ∀ {heading other}, facing heading other → facing (heading - angle) (other - turn)
  ahead : ∀ {pose : Pose α} {other : Pose β}, Pose.Beside near facing pose other →
    near (pose.ahead length) (other.ahead stride)

variable {angle length : α} {turn stride : β}

/-- Turtles of which one looks where the heading of the other one is read to point. -/
theorem InStep.of_read {read : α → β} (plus : ∀ heading, read (heading + angle) = read heading + turn)
    (minus : ∀ heading, read (heading - angle) = read heading - turn)
    (ahead : ∀ (pose : Pose α) (other : Pose β), near pose.position other.position →
      other.heading = read pose.heading → near (pose.ahead length) (other.ahead stride)) :
    InStep near (fun heading other => other = read heading) angle length turn stride where
  plus := by
    rintro heading _ rfl
    exact (plus heading).symm
  minus := by
    rintro heading _ rfl
    exact (minus heading).symm
  ahead := fun beside => ahead _ _ beside.position beside.heading

namespace Walk

theorem draw_beside (inStep : InStep near facing angle length turn stride)
    (beside : Walk.Beside near facing walk other) :
    Walk.Beside near facing (walk.draw length) (other.draw stride) := by
  have stop := inStep.ahead beside.pose
  refine ⟨⟨stop, beside.pose.heading⟩, beside.saved, ?_, beside.underflows⟩
  simp only [draw, Array.toList_push]
  exact List.rel_append beside.segments (.cons ⟨beside.pose.position, stop⟩ .nil)

theorem step_beside (inStep : InStep near facing angle length turn stride)
    (beside : Walk.Beside near facing walk other) (symbol : Symbol) :
    Walk.Beside near facing (walk.step angle length symbol) (other.step turn stride symbol) := by
  obtain ⟨⟨position, heading⟩, saved, segments, underflows⟩ := beside
  cases symbol with
  | a | b | f => exact draw_beside inStep ⟨⟨position, heading⟩, saved, segments, underflows⟩
  | move => exact ⟨⟨inStep.ahead ⟨position, heading⟩, heading⟩, saved, segments, underflows⟩
  | x | y => exact ⟨⟨position, heading⟩, saved, segments, underflows⟩
  | plus => exact ⟨⟨position, inStep.plus heading⟩, saved, segments, underflows⟩
  | minus => exact ⟨⟨position, inStep.minus heading⟩, saved, segments, underflows⟩
  | push => exact ⟨⟨position, heading⟩, .cons ⟨position, heading⟩ saved, segments, underflows⟩
  | pop => exact restore_beside ⟨⟨position, heading⟩, saved, segments, underflows⟩

theorem along_beside (inStep : InStep near facing angle length turn stride)
    (beside : Walk.Beside near facing walk other) (word : List Symbol) :
    Walk.Beside near facing (walk.along angle length word) (other.along turn stride word) := by
  induction word generalizing walk other with
  | nil => exact beside
  | cons symbol rest ih => exact ih (step_beside inStep beside symbol)

end Walk

theorem interpret_beside [Zero α] [Zero β] (inStep : InStep near facing angle length turn stride)
    {start : Point α} {other : Point β} (opening : near start other) (ahead : facing 0 0)
    (text : String) :
    Drawing.Beside near facing (interpret text angle length start)
      (interpret text turn stride other) := by
  have first : Walk.Beside near facing (.start start) (.start other) :=
    ⟨⟨opening, ahead⟩, .nil, .nil, rfl⟩
  obtain ⟨final, saved, segments, underflows⟩ := Walk.along_beside inStep first (symbols text)
  exact ⟨segments, final, underflows, saved.length_eq⟩

end Frond
