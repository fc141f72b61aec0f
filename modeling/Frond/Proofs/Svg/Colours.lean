import Mathlib
import Frond.Proofs.Svg.Containment
import Frond.Settings.Choices

/-!
Colours in a drawing. A colour has no character that is escaped, so it stands in the markup of its
element letter by letter, and that markup stands in every document of the drawing.
-/

namespace Frond

/-- A number sign, and three or six hexadecimal digits after it. -/
def Colour (text : String) : Prop :=
  ∃ digits : List Char, text.toList = '#' :: digits ∧
    (digits.length = 3 ∨ digits.length = 6) ∧ ∀ c ∈ digits, isHexDigit c = true

theorem isColour_iff {text : String} : isColour text = true ↔ Colour text := by
  unfold isColour Colour
  split
  case h_1 digits spelt =>
    simp only [spelt, List.cons.injEq, true_and, exists_eq_left', Bool.and_eq_true, Bool.or_eq_true,
      beq_iff_eq, List.all_eq_true]
  case h_2 other =>
    constructor
    · intro accepted
      cases accepted
    · rintro ⟨digits, spelt, _⟩
      exact absurd spelt (other digits)

instance (text : String) : Decidable (Colour text) := decidable_of_iff _ isColour_iff

theorem Colour.not_special {text : String} (colour : Colour text) :
    ∀ c ∈ text.toList, Svg.isSpecial c = false := by
  obtain ⟨digits, spelt, _, hexadecimal⟩ := colour
  intro c member
  rw [spelt] at member
  rcases List.mem_cons.mp member with rfl | inside
  · rfl
  · have digit := hexadecimal c inside
    cases special : Svg.isSpecial c with
    | false => rfl
    | true =>
        have listed : c ∈ "&<>\"\x27".toList := List.elem_iff.mp special
        simp only [String.reduceToList, List.mem_cons, List.not_mem_nil, or_false] at listed
        rcases listed with rfl | rfl | rfl | rfl | rfl <;> cases digit

namespace Svg

theorem escape_colour {text : String} (colour : Colour text) : escape text = text :=
  escape_of_not_special colour.not_special

/-- The markup of a background, with its fill written as it is given. -/
def backgroundText (style : Style) (area : Box Float) (fill : String) : String :=
  "<rect" ++ assigned "class" (Element.className style "background") ++
    assigned "x" (numeralText area.x) ++ assigned "y" (numeralText area.y) ++
    assigned "width" (numeralText area.width) ++ assigned "height" (numeralText area.height) ++
    assigned "fill" fill ++ "/>"

/-- The markup of a curve, with its stroke written as it is given. -/
def curveText (style : Style) (segments : List (Segment Float)) (stroke : String) : String :=
  "<path" ++ assigned "class" (Element.className style "curve") ++
    assigned "d" (pathText segments) ++ assigned "fill" "none" ++ assigned "stroke" stroke ++
    assigned "stroke-width" (numeralText style.strokeWidth) ++
    assigned "stroke-linecap" "round" ++ "/>"

/-- The colours stand in a document as they are: the background in the markup of its rectangle and,
where there is a curve, the line in the markup of its path. Where the class names hold no character
of markup a reader finds both. -/
structure Coloured (style : Style) (palette : Palette) (viewBox : Box Float)
    (segments : List (Segment Float)) (document : String) : Prop where
  background : ∃ before after : String,
    document = before ++ backgroundText style viewBox palette.background ++ after
  curve : segments ≠ [] → ∃ before after : String,
    document = before ++ curveText style segments palette.line ++ after
  read : (∀ c ∈ (style.classStem.getD "").toList, isSpecial c = false) →
    ∃ tags, readTags document = some tags ∧
      writtenIn? tags "rect" "fill" = some palette.background ∧
      writtenIn? tags "path" "stroke" = if segments.isEmpty then none else some palette.line

variable {style : Style} {palette : Palette} {viewBox : Box Float} {segments : List (Segment Float)}

theorem exists_around_tag {tag : Tag} (member : tag ∈ drawingTags style palette viewBox segments)
    {markup after : String} (written : tag.text = (markup ++ after).toList) :
    ∃ before rest : String, renderIn style palette viewBox segments = before ++ markup ++ rest := by
  obtain ⟨left, right, split⟩ := List.append_of_mem member
  refine ⟨String.ofList (left.flatMap Tag.text), after ++ String.ofList (right.flatMap Tag.text), ?_⟩
  apply String.toList_inj.mp
  rw [toList_renderIn, split, List.flatMap_append, List.flatMap_cons, written]
  simp only [String.toList_append, String.toList_ofList, List.append_assoc]

theorem written_backgroundTag (stem : '"' ∉ (style.classStem.getD "").toList) (area : Box Float)
    (fill after key : String) :
    (backgroundTag style area fill after).written? key =
      ([⟨"class", Element.className style "background"⟩, ⟨"x", numeralText area.x⟩,
        ⟨"y", numeralText area.y⟩, ⟨"width", numeralText area.width⟩,
        ⟨"height", numeralText area.height⟩, ⟨"fill", escape fill⟩].find? (·.key = key)).map
          Assignment.value := by
  have numeral (value : Float) := not_mem_of_chars (c := '"') rfl (numeralText_chars value)
  have escaped := not_mem_escape (c := '"') rfl (by decide) fill
  exact Tag.written?_ofAssignments (by simp) (by simp) (by simp) (by simp)
    (by simp [numeral, escaped, stem, Element.className]) after key

theorem written_curveTag (stem : '"' ∉ (style.classStem.getD "").toList)
    (segments : List (Segment Float)) (stroke after key : String) :
    (curveTag style segments stroke after).written? key =
      ([⟨"class", Element.className style "curve"⟩, ⟨"d", pathText segments⟩, ⟨"fill", "none"⟩,
        ⟨"stroke", escape stroke⟩, ⟨"stroke-width", numeralText style.strokeWidth⟩,
        ⟨"stroke-linecap", "round"⟩].find? (·.key = key)).map Assignment.value := by
  have numeral (value : Float) := not_mem_of_chars (c := '"') rfl (numeralText_chars value)
  have path := not_mem_of_chars (c := '"') rfl (pathText_chars segments)
  have escaped := not_mem_escape (c := '"') rfl (by decide) stroke
  exact Tag.written?_ofAssignments (by simp) (by simp) (by simp) (by simp)
    (by simp [numeral, path, escaped, stem, Element.className]) after key

/-- Texts that are written as themselves stand in a drawing as they are. -/
theorem coloured_renderIn (background : escape palette.background = palette.background)
    (line : escape palette.line = palette.line) (style : Style) (viewBox : Box Float)
    (segments : List (Segment Float)) :
    Coloured style palette viewBox segments (renderIn style palette viewBox segments) where
  background := by
    have member : backgroundTag style viewBox palette.background
        (newline style ++ if segments.isEmpty then "" else indent style) ∈
          drawingTags style palette viewBox segments := by simp [drawingTags]
    have markup : (Element.background viewBox palette.background).markup? style =
        some (backgroundText style viewBox palette.background) := by
      rw [Element.markup?, background, backgroundText]
    have text := text_backgroundTag style viewBox palette.background
      (newline style ++ if segments.isEmpty then "" else indent style)
    rw [markup, Option.getD_some] at text
    exact exists_around_tag member text
  curve := by
    intro drawn
    obtain ⟨first, rest, rfl⟩ := List.exists_cons_of_ne_nil drawn
    have member : curveTag style (first :: rest) palette.line (newline style) ∈
        drawingTags style palette viewBox (first :: rest) := by simp [drawingTags, curveTags]
    have markup : (Element.curve (first :: rest) palette.line).markup? style =
        some (curveText style (first :: rest) palette.line) := by
      rw [Element.markup?, line, curveText]
    have text := text_curveTag style first rest palette.line (newline style)
    rw [markup, Option.getD_some] at text
    exact exists_around_tag member text
  read := by
    intro harmless
    have absent {c : Char} (special : isSpecial c = true) :
        c ∉ (style.classStem.getD "").toList := by
      intro member
      rw [harmless c member] at special
      cases special
    refine ⟨_, readTags_renderIn (absent rfl) (absent rfl), ?_, ?_⟩
    · rw [writtenIn?, find?_rect_drawingTags, Option.bind_some, written_backgroundTag (absent rfl),
        background]
      rfl
    · rw [writtenIn?, find?_path_drawingTags]
      split
      · rfl
      · rw [Option.bind_some, written_curveTag (absent rfl), line]
        rfl

theorem titled_eq (style : Style) (name : String) :
    ∃ title, style.titled name = { style with title } := by
  rw [Style.titled]
  split
  · exact ⟨some name, rfl⟩
  · exact ⟨style.title, rfl⟩

theorem classStem_titled (style : Style) (name : String) :
    (style.titled name).classStem = style.classStem := by
  obtain ⟨title, titled⟩ := titled_eq style name
  rw [titled]

theorem viewBox_titled (style : Style) (name : String) (start : Point Float)
    (segments : List (Segment Float)) :
    Svg.viewBox (style.titled name) start segments = Svg.viewBox style start segments := by
  obtain ⟨title, titled⟩ := titled_eq style name
  rw [Svg.viewBox, titled, Svg.viewBox]

theorem Coloured.of_titled {name document : String}
    (coloured : Coloured (style.titled name) palette viewBox segments document) :
    Coloured style palette viewBox segments document := by
  have width : (style.titled name).strokeWidth = style.strokeWidth := by
    obtain ⟨title, titled⟩ := titled_eq style name
    rw [titled]
  obtain ⟨background, curve, read⟩ := coloured
  simp only [backgroundText, curveText, Element.className, classStem_titled, width] at background curve read
  exact ⟨background, curve, read⟩

end Svg

end Frond
