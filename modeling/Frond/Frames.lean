import Frond.Svg.Document

/-!
A drawing shown as it comes into being: a frame after every few segments, all in the view box
of the finished drawing, the last one being the finished drawing itself.
-/

namespace Frond

/-- No drawing has more frames than this. -/
def maxFrames : Nat := 201

/-- The counts of segments that the frames show. Frames are evenly spaced from the first
segment on, and the last segment always has one. -/
def frameEnds (count : Nat) : List Nat :=
  let spacing := count / 200 + 1
  ((List.range count).filter fun i => i % spacing == 0 || i + 1 == count).map (· + 1)

/-- The frames of a drawing that are still to come. -/
structure Frames where
  style : Svg.Style
  palette : Palette
  viewBox : Box Float
  segments : List (Segment Float)
  ends : List Nat

namespace Frames

def ofSegments (style : Svg.Style) (palette : Palette) (start : Point Float)
    (segments : List (Segment Float)) : Frames :=
  { style, palette, viewBox := Svg.viewBox style start segments, segments,
    ends := frameEnds segments.length }

def size (frames : Frames) : Nat := frames.ends.length

/-- The frame that shows the first `count` segments. -/
def document (frames : Frames) (count : Nat) : String :=
  Svg.renderIn frames.style frames.palette frames.viewBox (frames.segments.take count)

/-- The next frame, and those after it. -/
def next? (frames : Frames) : Option (String × Frames) :=
  match frames.ends with
  | [] => none
  | count :: rest => some (frames.document count, { frames with ends := rest })

def toList (frames : Frames) : List String := frames.ends.map frames.document

end Frames

/-- The name of the file for a frame, counted from one; three digits at least. -/
def frameFileName (number : Nat) : String :=
  "frame_" ++ String.ofList ((Nat.toDigits 10 number).leftpad 3 '0') ++ ".svg"

example : frameFileName 7 = "frame_007.svg" := by decide

end Frond
