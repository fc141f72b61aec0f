import Frond.Svg.Markup
import Frond.Svg.Path
import Frond.Svg.Style

/-!
The document around a drawing: a list of elements between the opening and the closing tag,
one to a line or all on one, and the drawing of segments inside a view box.
-/

namespace Frond.Svg

inductive Element where
  | title (text : String)
  /-- A filled rectangle. -/
  | background (area : Box Float) (fill : String)
  /-- All segments as one path. -/
  | curve (segments : List (Segment Float)) (stroke : String)

namespace Element

def className (style : Style) (name : String) : String := style.classStem.getD "" ++ name

/-- The markup of an element; a curve without segments has none. -/
def markup? (style : Style) : Element → Option String
  | title text => some ("<title>" ++ escape text ++ "</title>")
  | background area fill =>
    some ("<rect" ++ assigned "class" (className style "background") ++
      assigned "x" (numeralText area.x) ++ assigned "y" (numeralText area.y) ++
      assigned "width" (numeralText area.width) ++ assigned "height" (numeralText area.height) ++
      assigned "fill" (escape fill) ++ "/>")
  | curve [] _ => none
  | curve (first :: rest) stroke =>
    some ("<path" ++ assigned "class" (className style "curve") ++
      assigned "d" (pathText (first :: rest)) ++ assigned "fill" "none" ++
      assigned "stroke" (escape stroke) ++
      assigned "stroke-width" (numeralText style.strokeWidth) ++
      assigned "stroke-linecap" "round" ++ "/>")

end Element

def declaration : String := "<?xml version=\"1.0\" encoding=\"UTF-8\"?>"

def opening (viewBox : Box Float) : String :=
  "<svg" ++ assigned "xmlns" "http://www.w3.org/2000/svg" ++
    assigned "viewBox" (viewBoxText viewBox) ++ ">"

def closing : String := "</svg>"

/-- The lines of a document before its closing tag. -/
def lines (style : Style) (viewBox : Box Float) (elements : List Element) : List String :=
  let indent := if style.indented then "  " else ""
  (if style.standalone then [declaration] else []) ++ [opening viewBox] ++
    (elements.filterMap (Element.markup? style)).map (indent ++ ·)

def document (style : Style) (viewBox : Box Float) (elements : List Element) : String :=
  let newline := if style.indented then "\n" else ""
  String.join ((lines style viewBox elements).map (· ++ newline)) ++ closing

/-- The elements of a drawing: its title if there is one, the background, and the curve. -/
def elements (style : Style) (palette : Palette) (viewBox : Box Float)
    (segments : List (Segment Float)) : List Element :=
  (style.title.map Element.title).toList ++
    [.background viewBox palette.background, .curve segments palette.line]

/-- The drawing of segments, cut to a view box. -/
def renderIn (style : Style) (palette : Palette) (viewBox : Box Float)
    (segments : List (Segment Float)) : String :=
  document style viewBox (elements style palette viewBox segments)

/-- The view box around a drawing; without segments it lies around `start`. -/
def viewBox (style : Style) (start : Point Float) (segments : List (Segment Float)) : Box Float :=
  (Box.ofSegments segments start).padded style.padding

/-- The drawing of segments, in a view box that fits. -/
def render (style : Style) (palette : Palette) (start : Point Float)
    (segments : List (Segment Float)) : String :=
  renderIn style palette (viewBox style start segments) segments

end Frond.Svg
