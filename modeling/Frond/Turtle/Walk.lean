import Frond.Event
import Frond.Geometry.Point
import Frond.Symbol

/-!
The turtle: it walks a text symbol by symbol, leaves a segment behind at every drawing
symbol, and keeps its poses on a stack between the brackets.

Main definitions: `Pose`, `Walk.step`, `Walk.along` and `Drawing`, which is what a walk leaves.
-/

namespace Frond

/-- Coordinates with a sine and a cosine. -/
class Trigonometry (α : Type) where
  sin : α → α
  cos : α → α

instance : Trigonometry Float where
  sin := Float.sin
  cos := Float.cos

/-- Where the turtle is and where it looks; heading zero looks up, and headings grow clockwise. -/
structure Pose (α : Type) where
  position : Point α
  heading : α
  deriving Repr

variable {α : Type}

/-- Saved poses, the last one saved on top. -/
structure PoseStack (α : Type) where
  poses : List (Pose α) := []
  deriving Repr

namespace PoseStack

def push (stack : PoseStack α) (pose : Pose α) : PoseStack α := ⟨pose :: stack.poses⟩

def pop? (stack : PoseStack α) : Option (Pose α × PoseStack α) :=
  match stack.poses with
  | [] => none
  | pose :: rest => some (pose, ⟨rest⟩)

def size (stack : PoseStack α) : Nat := stack.poses.length

end PoseStack

section

variable [Add α] [Sub α] [Mul α] [Zero α] [Trigonometry α]

namespace Pose

/-- The pose in which a walk begins. -/
def upright (position : Point α) : Pose α := ⟨position, 0⟩

/-- The point one step ahead. -/
def ahead (pose : Pose α) (step : α) : Point α :=
  ⟨pose.position.x + step * Trigonometry.sin pose.heading,
    pose.position.y - step * Trigonometry.cos pose.heading⟩

end Pose

/-- A turtle under way. -/
structure Walk (α : Type) where
  pose : Pose α
  saved : PoseStack α := {}
  segments : Array (Segment α) := #[]
  /-- The closing brackets met so far that had no saved pose to return to. -/
  underflows : Nat := 0

namespace Walk

def start (position : Point α) : Walk α := { pose := .upright position }

/-- Goes one step ahead with the pen down. -/
def draw (step : α) (walk : Walk α) : Walk α :=
  let stop := walk.pose.ahead step
  { walk with
    segments := walk.segments.push ⟨walk.pose.position, stop⟩
    pose := { walk.pose with position := stop } }

/-- Goes one step ahead with the pen up. -/
def hop (step : α) (walk : Walk α) : Walk α :=
  { walk with pose := { walk.pose with position := walk.pose.ahead step } }

/-- Returns to the pose saved last; without one the turtle stays where it is. -/
def restore (walk : Walk α) : Walk α :=
  match walk.saved.pop? with
  | some (pose, saved) => { walk with pose, saved }
  | none => { walk with underflows := walk.underflows + 1 }

def step (angle length : α) (walk : Walk α) : Symbol → Walk α
  | .a | .b | .f => walk.draw length
  | .move => walk.hop length
  | .x | .y => walk
  | .plus => { walk with pose := { walk.pose with heading := walk.pose.heading + angle } }
  | .minus => { walk with pose := { walk.pose with heading := walk.pose.heading - angle } }
  | .push => { walk with saved := walk.saved.push walk.pose }
  | .pop => walk.restore

/-- Walks along a word. -/
def along (angle length : α) (walk : Walk α) (word : List Symbol) : Walk α :=
  word.foldl (step angle length) walk

end Walk

/-- What a walk leaves behind. -/
structure Drawing (α : Type) where
  /-- The segments in the order in which they were drawn. -/
  segments : List (Segment α)
  final : Pose α
  /-- The closing brackets that were passed over. -/
  underflows : Nat
  /-- The saved poses that no bracket returned to. -/
  leftover : Nat

/-- The drawing of a text. -/
def interpret (text : String) (angle length : α) (start : Point α) : Drawing α :=
  let walk := (Walk.start start).along angle length (symbols text)
  { segments := walk.segments.toList
    final := walk.pose
    underflows := walk.underflows
    leftover := walk.saved.size }

end

namespace Drawing

def target : String := "drawsystem::turtle::interpreter"

def ignoredEvent (underflows : Nat) : Event :=
  { level := .debug, target, message := "ignored ']' with no saved state",
    fields := [("underflows", .count underflows)] }

def discardedEvent (leftover : Nat) : Event :=
  { level := .debug, target, message := "discarded unmatched saved states",
    fields := [("residual", .count leftover)] }

def interpretedEvent (segments : Nat) : Event :=
  { level := .debug, target, message := "interpreted string",
    fields := [("segments", .count segments)] }

/-- What is logged when a drawing is finished. -/
def events (drawing : Drawing α) : List Event :=
  (if drawing.underflows = 0 then [] else [ignoredEvent drawing.underflows]) ++
    (if drawing.leftover = 0 then [] else [discardedEvent drawing.leftover]) ++
    [interpretedEvent drawing.segments.length]

end Drawing

end Frond
