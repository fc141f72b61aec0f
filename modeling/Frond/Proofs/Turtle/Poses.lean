import Frond.Turtle.Walk

/-!
What holds of every pose of a walk. A turtle turns by one angle and goes ahead by one length, or
returns to a pose that it had before. So what turns and steps preserve holds from the first pose
on, and every segment lies between two such poses.
-/

namespace Frond

variable {α : Type} {good : Pose α → Prop} {walk : Walk α}

/-- Points at which there is a pose of a set. -/
def Point.Of (good : Pose α → Prop) (point : Point α) : Prop := ∃ heading, good ⟨point, heading⟩

/-- The pose of the turtle, the saved ones and those at the ends of segments are all of a set. -/
structure Walk.Throughout (good : Pose α → Prop) (walk : Walk α) : Prop where
  pose : good walk.pose
  saved : ∀ pose ∈ walk.saved.poses, good pose
  segments : ∀ segment ∈ walk.segments.toList, segment.start.Of good ∧ segment.stop.Of good

theorem Walk.restore_throughout (throughout : walk.Throughout good) :
    walk.restore.Throughout good := by
  rw [restore, PoseStack.pop?]
  cases saved : walk.saved.poses with
  | nil => exact ⟨throughout.pose, throughout.saved, throughout.segments⟩
  | cons pose rest =>
      have kept := throughout.saved
      rw [saved] at kept
      exact ⟨kept pose List.mem_cons_self,
        fun other member => kept other (List.mem_cons_of_mem _ member), throughout.segments⟩

variable [Add α] [Sub α] [Mul α] [Trigonometry α] {angle length : α}

/-- Poses of a set that is not left by turning or going ahead. -/
structure Pose.Closed (angle length : α) (good : Pose α → Prop) : Prop where
  plus : ∀ pose, good pose → good { pose with heading := pose.heading + angle }
  minus : ∀ pose, good pose → good { pose with heading := pose.heading - angle }
  ahead : ∀ pose, good pose → good { pose with position := pose.ahead length }

namespace Walk

theorem draw_throughout (closed : Pose.Closed angle length good)
    (throughout : walk.Throughout good) : (walk.draw length).Throughout good where
  pose := closed.ahead _ throughout.pose
  saved := throughout.saved
  segments := by
    intro segment member
    rw [draw, Array.toList_push, List.mem_append, List.mem_singleton] at member
    rcases member with drawn | rfl
    · exact throughout.segments segment drawn
    · exact ⟨⟨_, throughout.pose⟩, _, closed.ahead _ throughout.pose⟩

theorem step_throughout (closed : Pose.Closed angle length good)
    (throughout : walk.Throughout good) (symbol : Symbol) :
    (walk.step angle length symbol).Throughout good := by
  obtain ⟨pose, saved, segments⟩ := throughout
  cases symbol with
  | a | b | f => exact draw_throughout closed ⟨pose, saved, segments⟩
  | move => exact ⟨closed.ahead _ pose, saved, segments⟩
  | x | y => exact ⟨pose, saved, segments⟩
  | plus => exact ⟨closed.plus _ pose, saved, segments⟩
  | minus => exact ⟨closed.minus _ pose, saved, segments⟩
  | push =>
      refine ⟨pose, ?_, segments⟩
      intro other member
      rcases List.mem_cons.mp member with rfl | before
      · exact pose
      · exact saved other before
  | pop => exact restore_throughout ⟨pose, saved, segments⟩

theorem along_throughout (closed : Pose.Closed angle length good)
    (throughout : walk.Throughout good) (word : List Symbol) :
    (walk.along angle length word).Throughout good := by
  induction word generalizing walk with
  | nil => exact throughout
  | cons symbol rest ih => exact ih (step_throughout closed throughout symbol)

end Walk

/-- The segments of a drawing lie between poses that can be reached from the first one. -/
theorem interpret_throughout [Zero α] (closed : Pose.Closed angle length good) {start : Point α}
    (first : good (.upright start)) (text : String) :
    ∀ segment ∈ (interpret text angle length start).segments,
      segment.start.Of good ∧ segment.stop.Of good := by
  have opening : (Walk.start start).Throughout good := by
    refine ⟨first, ?_, ?_⟩
    · intro pose member
      cases member
    · intro segment member
      cases member
  exact (Walk.along_throughout closed opening (symbols text)).segments

end Frond
