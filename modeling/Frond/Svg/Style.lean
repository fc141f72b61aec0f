/-!
How a drawing is shown: the colours, and the choices of the document around it.
-/

namespace Frond

structure Palette where
  background : String := "#ffffff"
  line : String := "#000000"
  deriving DecidableEq, Repr

namespace Svg

structure Style where
  /-- The margin around the drawing. -/
  padding : Float := 20.0
  /-- Whether the document opens with an XML declaration. -/
  standalone : Bool := true
  /-- Whether every element stands on a line of its own. -/
  indented : Bool := true
  strokeWidth : Float := 1.0
  /-- What the class names of the elements start with. -/
  classStem : Option String := some "ds-"
  title : Option String := none
  deriving BEq, Repr

/-- Uses the name as the title if there is no other and the name is not empty. -/
def Style.titled (style : Style) (name : String) : Style :=
  if style.title.isNone && !name.isEmpty then { style with title := some name } else style

end Svg

end Frond
