import Mathlib
import Frond.Proofs.Number.Characters
import Frond.Proofs.Svg.PathReading
import Frond.Proofs.Svg.Tags
import Frond.Svg.Document

/-!
The tags of a drawing, each with its attributes. A drawing is written as these tags one after the
other, whatever stands in its texts; they are the tags that a reader finds if no bracket stands in
the class names.
-/

namespace Frond.Svg

open Tag (ofAssignments)

def newline (style : Style) : String := if style.indented then "\n" else ""

def indent (style : Style) : String := if style.indented then "  " else ""

def declarationTag (after : String) : Tag :=
  ofAssignments "?xml" [⟨"version", "1.0"⟩, ⟨"encoding", "UTF-8"⟩] "?" after

def openingTag (viewBox : Box Float) (after : String) : Tag :=
  ofAssignments "svg"
    [⟨"xmlns", "http://www.w3.org/2000/svg"⟩, ⟨"viewBox", viewBoxText viewBox⟩] "" after

def titleTag (title : String) : Tag := ofAssignments "title" [] "" (escape title)

def titleEndTag (after : String) : Tag := ofAssignments "/title" [] "" after

def backgroundTag (style : Style) (area : Box Float) (fill after : String) : Tag :=
  ofAssignments "rect"
    [⟨"class", Element.className style "background"⟩, ⟨"x", numeralText area.x⟩,
      ⟨"y", numeralText area.y⟩, ⟨"width", numeralText area.width⟩,
      ⟨"height", numeralText area.height⟩, ⟨"fill", escape fill⟩] "/" after

def curveTag (style : Style) (segments : List (Segment Float)) (stroke after : String) : Tag :=
  ofAssignments "path"
    [⟨"class", Element.className style "curve"⟩, ⟨"d", pathText segments⟩, ⟨"fill", "none"⟩,
      ⟨"stroke", escape stroke⟩, ⟨"stroke-width", numeralText style.strokeWidth⟩,
      ⟨"stroke-linecap", "round"⟩] "/" after

def closingTag : Tag := ofAssignments "/svg" [] "" ""

@[simp] theorem name_declarationTag (after : String) : (declarationTag after).name = "?xml" :=
  Tag.name_ofAssignments (by decide) (by simp) after

@[simp] theorem name_openingTag (viewBox : Box Float) (after : String) :
    (openingTag viewBox after).name = "svg" :=
  Tag.name_ofAssignments (by decide) (by simp) after

@[simp] theorem name_titleTag (title : String) : (titleTag title).name = "title" :=
  Tag.name_ofAssignments (by decide) (by simp) _

@[simp] theorem name_titleEndTag (after : String) : (titleEndTag after).name = "/title" :=
  Tag.name_ofAssignments (by decide) (by simp) after

@[simp] theorem name_backgroundTag (style : Style) (area : Box Float) (fill after : String) :
    (backgroundTag style area fill after).name = "rect" :=
  Tag.name_ofAssignments (by decide) (by simp) after

@[simp] theorem name_curveTag (style : Style) (segments : List (Segment Float))
    (stroke after : String) : (curveTag style segments stroke after).name = "path" :=
  Tag.name_ofAssignments (by decide) (by simp) after

@[simp] theorem name_closingTag : closingTag.name = "/svg" :=
  Tag.name_ofAssignments (by decide) (by simp) _

def declarationTags (style : Style) : List Tag :=
  if style.standalone then [declarationTag (newline style)] else []

def titleTags (style : Style) : List Tag :=
  match style.title with
  | some title => [titleTag title, titleEndTag (newline style ++ indent style)]
  | none => []

def curveTags (style : Style) (segments : List (Segment Float)) (stroke : String) : List Tag :=
  if segments.isEmpty then [] else [curveTag style segments stroke (newline style)]

theorem name_of_mem_declarationTags {style : Style} {tag : Tag}
    (member : tag ∈ declarationTags style) : tag.name = "?xml" := by
  unfold declarationTags at member
  split at member
  · rw [List.mem_singleton.mp member, name_declarationTag]
  · cases member

theorem find?_declarationTags {name : String} (other : name ≠ "?xml") (style : Style) :
    (declarationTags style).find? (·.name == name) = none := by
  apply List.find?_eq_none.mpr
  intro tag member
  simp [name_of_mem_declarationTags member, other.symm]

theorem find?_titleTags {name : String} (opening : name ≠ "title") (ending : name ≠ "/title")
    (style : Style) : (titleTags style).find? (·.name == name) = none := by
  unfold titleTags
  split <;> simp [opening.symm, ending.symm]

/-- The tags of a drawing. Before an element that is indented stands the text of the tag before. -/
def drawingTags (style : Style) (palette : Palette) (viewBox : Box Float)
    (segments : List (Segment Float)) : List Tag :=
  declarationTags style ++ openingTag viewBox (newline style ++ indent style) :: titleTags style ++
    backgroundTag style viewBox palette.background
      (newline style ++ if segments.isEmpty then "" else indent style) ::
    curveTags style segments palette.line ++ [closingTag]

theorem text_ofAssignments {name closing : String} (start stop : String)
    (opened : "<" ++ name = start) (closed : closing ++ ">" = stop)
    (assignments : List Assignment) (after : String) :
    (ofAssignments name assignments closing after).text =
      start.toList ++ (assignments.flatMap fun entry => (assigned entry.key entry.value).toList) ++
        stop.toList ++ after.toList := by
  subst opened closed
  simp [Tag.text, ofAssignments]

theorem text_declarationTag (after : String) :
    (declarationTag after).text = (declaration ++ after).toList := by
  have spelt : declaration.toList = "<?xml".toList ++
      ((assigned "version" "1.0").toList ++ (assigned "encoding" "UTF-8").toList) ++
        "?>".toList := by decide
  rw [String.toList_append, spelt, declarationTag,
    text_ofAssignments "<?xml" "?>" (by decide) (by decide)]
  rfl

theorem text_openingTag (viewBox : Box Float) (after : String) :
    (openingTag viewBox after).text = (opening viewBox ++ after).toList := by
  rw [openingTag, text_ofAssignments "<svg" ">" (by decide) (by decide)]
  simp only [opening, String.toList_append, List.flatMap_cons, List.flatMap_nil, List.append_nil,
    List.append_assoc]

theorem text_titleTag (title : String) :
    (titleTag title).text = ("<title>" ++ escape title).toList := by
  rw [titleTag, text_ofAssignments "<title" ">" (by decide) (by decide), String.toList_append]
  rfl

theorem text_titleEndTag (after : String) :
    (titleEndTag after).text = ("</title>" ++ after).toList := by
  rw [titleEndTag, text_ofAssignments "</title" ">" (by decide) (by decide), String.toList_append]
  rfl

theorem text_backgroundTag (style : Style) (area : Box Float) (fill after : String) :
    (backgroundTag style area fill after).text =
      (((Element.background area fill).markup? style).getD "" ++ after).toList := by
  rw [backgroundTag, text_ofAssignments "<rect" "/>" (by decide) (by decide)]
  simp only [Element.markup?, Option.getD_some, String.toList_append, List.flatMap_cons,
    List.flatMap_nil, List.append_nil, List.append_assoc]

theorem text_curveTag (style : Style) (first : Segment Float) (rest : List (Segment Float))
    (stroke after : String) :
    (curveTag style (first :: rest) stroke after).text =
      (((Element.curve (first :: rest) stroke).markup? style).getD "" ++ after).toList := by
  rw [curveTag, text_ofAssignments "<path" "/>" (by decide) (by decide)]
  simp only [Element.markup?, Option.getD_some, String.toList_append, List.flatMap_cons,
    List.flatMap_nil, List.append_nil, List.append_assoc]

theorem text_closingTag : closingTag.text = closing.toList := by decide

/-- A drawing is the text of its tags. -/
theorem toList_renderIn (style : Style) (palette : Palette) (viewBox : Box Float)
    (segments : List (Segment Float)) :
    (renderIn style palette viewBox segments).toList =
      (drawingTags style palette viewBox segments).flatMap Tag.text := by
  cases title : style.title <;> cases segments <;> cases standalone : style.standalone <;>
    simp [renderIn, document, lines, elements, drawingTags, declarationTags, titleTags, curveTags,
      title, standalone, Element.markup?, newline, indent, text_declarationTag, text_openingTag,
      text_titleTag, text_titleEndTag, text_backgroundTag, text_curveTag, text_closingTag]

section

variable {style : Style} {palette : Palette} {viewBox : Box Float} {segments : List (Segment Float)}

/-- The kinds of tags in a drawing. -/
theorem mem_drawingTags {tag : Tag} (member : tag ∈ drawingTags style palette viewBox segments) :
    tag = declarationTag (newline style) ∨
      tag = openingTag viewBox (newline style ++ indent style) ∨
      (∃ title, tag = titleTag title) ∨ tag = titleEndTag (newline style ++ indent style) ∨
      tag = backgroundTag style viewBox palette.background
        (newline style ++ if segments.isEmpty then "" else indent style) ∨
      tag = curveTag style segments palette.line (newline style) ∨ tag = closingTag := by
  have declaration (inside : tag ∈ declarationTags style) :
      tag = declarationTag (newline style) := by
    simp only [declarationTags] at inside
    split at inside
    · exact List.mem_singleton.mp inside
    · cases inside
  have title (inside : tag ∈ titleTags style) :
      (∃ title, tag = titleTag title) ∨ tag = titleEndTag (newline style ++ indent style) := by
    simp only [titleTags] at inside
    split at inside
    · simp only [List.mem_cons, List.not_mem_nil, or_false] at inside
      rcases inside with rfl | rfl
      · exact .inl ⟨_, rfl⟩
      · exact .inr rfl
    · cases inside
  have curve (inside : tag ∈ curveTags style segments palette.line) :
      tag = curveTag style segments palette.line (newline style) := by
    simp only [curveTags] at inside
    split at inside
    · cases inside
    · exact List.mem_singleton.mp inside
  simp only [drawingTags, List.cons_append, List.append_assoc, List.mem_append, List.mem_cons,
    List.not_mem_nil, or_false] at member
  rcases member with declared | opened | titled | drawn | curved | closed
  · exact .inl (declaration declared)
  · exact .inr (.inl opened)
  · rcases title titled with opening | ending
    · exact .inr (.inr (.inl opening))
    · exact .inr (.inr (.inr (.inl ending)))
  · exact .inr (.inr (.inr (.inr (.inl drawn))))
  · exact .inr (.inr (.inr (.inr (.inr (.inl (curve curved))))))
  · exact .inr (.inr (.inr (.inr (.inr (.inr closed)))))

end

end Frond.Svg
