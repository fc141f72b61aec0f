import Frond.Geometry.Box
import Frond.Number.Fixed

/-!
The text of a path. The pen starts where the first segment does and is lifted only where a
segment does not start at the end of the one before it.
-/

namespace Frond.Svg

variable {α : Type}

/-- What a pen is told: to go to a point without drawing, or to draw a line to it. -/
inductive PenCommand (α : Type) where
  | moveTo (p : Point α)
  | lineTo (p : Point α)

/-- Whether the pen has to be lifted to reach a point from where it is, if it is anywhere. -/
def lifts [BEq α] (pen : Option (Point α)) (p : Point α) : Bool :=
  match pen with
  | some here => here != p
  | none => true

/-- The commands for one segment: a line, after a lift of the pen where it is needed. -/
def penCommands [BEq α] (pen : Option (Point α)) (segment : Segment α) : List (PenCommand α) :=
  if lifts pen segment.start then [.moveTo segment.start, .lineTo segment.stop]
  else [.lineTo segment.stop]

/-- A path under way: the commands so far, and where the pen is. -/
structure Path (α : Type) where
  commands : Array (PenCommand α) := #[]
  pen : Option (Point α) := none

namespace Path

variable [BEq α]

def add (path : Path α) (segment : Segment α) : Path α :=
  { commands := path.commands ++ penCommands path.pen segment
    pen := some segment.stop }

def ofSegments (segments : List (Segment α)) : Path α := segments.foldl add {}

end Path

variable [Numeral α]

/-- Two coordinates with a blank between them. -/
def pointText (p : Point α) : String := numeralText p.x ++ " " ++ numeralText p.y

def PenCommand.text : PenCommand α → String
  | moveTo p => "M" ++ pointText p
  | lineTo p => "L" ++ pointText p

/-- The path along all segments. -/
def pathText [BEq α] (segments : List (Segment α)) : String :=
  " ".intercalate ((Path.ofSegments segments).commands.toList.map PenCommand.text)

/-- The four numbers of a view box. -/
def viewBoxText (box : Box α) : String :=
  " ".intercalate [numeralText box.x, numeralText box.y, numeralText box.width,
    numeralText box.height]

end Frond.Svg
