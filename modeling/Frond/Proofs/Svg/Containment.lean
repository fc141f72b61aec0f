import Mathlib
import Frond.Proofs.Svg.Characters
import Frond.Proofs.Svg.DrawingTags

/-!
What stands in a title or a colour stays there. Such a text is escaped, so no bracket or double
quote of it is written, and a reader finds the tags of the drawing and the text itself.
-/

namespace Frond.Svg

open Tag (ofAssignments)

variable {style : Style} {palette : Palette} {viewBox : Box Float} {segments : List (Segment Float)}

/-- The words of a tag hold no bracket, its values are numbers, escaped texts and class names, and
what follows a tag is a title or layout. -/
theorem drawingTags_lacks {c : Char} (bracket : c = '<' ∨ c = '>')
    (stem : c ∉ (style.classStem.getD "").toList) :
    ∀ tag ∈ drawingTags style palette viewBox segments, tag.Lacks c := by
  have escaped (text : String) : c ∉ (escape text).toList := by
    rcases bracket with rfl | rfl
    · exact not_mem_escape rfl (by decide) text
    · exact not_mem_escape rfl (by decide) text
  have foreign : isPathChar c = false := by rcases bracket with rfl | rfl <;> rfl
  have numeral (value : Float) := not_mem_of_chars foreign (numeralText_chars value)
  have path := not_mem_of_chars foreign (pathText_chars segments)
  have box := not_mem_of_chars foreign (viewBoxText_chars viewBox)
  have line : c ∉ (newline style).toList := by
    unfold newline
    cases style.indented <;> rcases bracket with rfl | rfl <;> decide
  have gap : c ∉ (indent style).toList := by
    unfold indent
    cases style.indented <;> rcases bracket with rfl | rfl <;> decide
  have bare : c ∉ (if segments = [] then "" else indent style).toList := by
    split
    · simp
    · exact gap
  intro tag member
  rcases mem_drawingTags member with rfl | rfl | ⟨title, rfl⟩ | rfl | rfl | rfl | rfl
  all_goals
    apply Tag.lacks_ofAssignments
    all_goals
      rcases bracket with rfl | rfl <;>
        simp [escaped, numeral, path, box, line, gap, bare, stem, Element.className]

/-- A reader finds the tags of a drawing if no bracket stands in the class names. -/
theorem readTags_renderIn (opened : '<' ∉ (style.classStem.getD "").toList)
    (closed : '>' ∉ (style.classStem.getD "").toList) :
    readTags (renderIn style palette viewBox segments) =
      some (drawingTags style palette viewBox segments) :=
  readTags_eq_some_iff.mpr ⟨toList_renderIn style palette viewBox segments,
    drawingTags_lacks (.inl rfl) opened, drawingTags_lacks (.inr rfl) closed⟩

theorem map_name_drawingTags :
    (drawingTags style palette viewBox segments).map Tag.name =
      (if style.standalone then ["?xml"] else []) ++
        "svg" :: (if style.title.isSome then ["title", "/title"] else []) ++
        "rect" :: (if segments.isEmpty then [] else ["path"]) ++ ["/svg"] := by
  cases title : style.title <;>
    simp [drawingTags, declarationTags, titleTags, curveTags, title, apply_ite (List.map Tag.name)]

theorem find?_rect_drawingTags :
    (drawingTags style palette viewBox segments).find? (·.name == "rect") =
      some (backgroundTag style viewBox palette.background
        (newline style ++ if segments.isEmpty then "" else indent style)) := by
  simp [drawingTags, find?_declarationTags, find?_titleTags]

theorem find?_path_drawingTags :
    (drawingTags style palette viewBox segments).find? (·.name == "path") =
      if segments.isEmpty then none
      else some (curveTag style segments palette.line (newline style)) := by
  simp only [drawingTags, curveTags]
  split <;> simp [find?_declarationTags, find?_titleTags]

theorem textBetween?_drawingTags :
    textBetween? "title" "/title" (drawingTags style palette viewBox segments) = style.title := by
  cases title : style.title with
  | none =>
      have others : ∀ tag ∈ drawingTags style palette viewBox segments, tag.name ≠ "title" := by
        intro tag member named
        have listed := List.mem_map_of_mem (f := Tag.name) member
        rw [map_name_drawingTags, named, title] at listed
        cases style.standalone <;> cases segments <;> simp at listed
      have skipped := textBetween?_append_of_ne others "/title" []
      rw [List.append_nil] at skipped
      rw [skipped, textBetween?]
      simp
  | some text =>
      have before : ∀ tag ∈ declarationTags style, tag.name ≠ "title" := by
        intro tag member
        rw [name_of_mem_declarationTags member]
        decide
      simp only [drawingTags, titleTags, title, List.append_assoc, List.cons_append,
        textBetween?_append_of_ne before]
      rw [textBetween?_cons_of_ne (by simp), textBetween?, if_pos (by simp)]
      simp [titleTag, ofAssignments]

/-- The quotes inside a class name are the only ones that a value can hold. -/
theorem value?_fill_backgroundTag (area : Box Float) (fill after : String)
    (stem : '"' ∉ (style.classStem.getD "").toList) :
    (backgroundTag style area fill after).value? "fill" = some fill := by
  have numeral (value : Float) :=
    not_mem_of_chars (c := '"') rfl (numeralText_chars value)
  have escaped := not_mem_escape (c := '"') rfl (by decide) fill
  rw [backgroundTag, Tag.value?_ofAssignments (by simp) (by simp) (by simp) (by simp)
    (by simp [numeral, escaped, stem, Element.className])]
  simp

theorem value?_stroke_curveTag (stroke after : String)
    (stem : '"' ∉ (style.classStem.getD "").toList) :
    (curveTag style segments stroke after).value? "stroke" = some stroke := by
  have numeral (value : Float) :=
    not_mem_of_chars (c := '"') rfl (numeralText_chars value)
  have path := not_mem_of_chars (c := '"') rfl (pathText_chars segments)
  have escaped := not_mem_escape (c := '"') rfl (by decide) stroke
  rw [curveTag, Tag.value?_ofAssignments (by simp) (by simp) (by simp) (by simp)
    (by simp [numeral, path, escaped, stem, Element.className])]
  simp

/-- A class stem without characters of markup keeps every text of a drawing in its place: the tags
are those of the drawing and no others, and the title and both colours are read back as they were
given, whatever stands in them. -/
theorem texts_read_back (style : Style) (palette : Palette) (viewBox : Box Float)
    (segments : List (Segment Float))
    (harmless : ∀ c ∈ (style.classStem.getD "").toList, isSpecial c = false) :
    ∃ tags, readTags (renderIn style palette viewBox segments) = some tags ∧
      tags.map Tag.name =
        (if style.standalone then ["?xml"] else []) ++
          "svg" :: (if style.title.isSome then ["title", "/title"] else []) ++
          "rect" :: (if segments.isEmpty then [] else ["path"]) ++ ["/svg"] ∧
      textBetween? "title" "/title" tags = style.title ∧
      valueIn? tags "rect" "fill" = some palette.background ∧
      valueIn? tags "path" "stroke" =
        if segments.isEmpty then none else some palette.line := by
  have absent {c : Char} (special : isSpecial c = true) :
      c ∉ (style.classStem.getD "").toList := by
    intro member
    rw [harmless c member] at special
    cases special
  refine ⟨drawingTags style palette viewBox segments, ?_, map_name_drawingTags,
    textBetween?_drawingTags, ?_, ?_⟩
  · exact readTags_renderIn (absent rfl) (absent rfl)
  · rw [valueIn?, find?_rect_drawingTags, Option.bind_some]
    exact value?_fill_backgroundTag _ _ _ (absent rfl)
  · rw [valueIn?, find?_path_drawingTags]
    by_cases empty : segments.isEmpty = true
    · rw [if_pos empty, if_pos empty, Option.bind_none]
    · rw [if_neg empty, if_neg empty, Option.bind_some]
      exact value?_stroke_curveTag _ _ (absent rfl)

/-- A drawing of one segment with markup in its title and in both colours. -/
theorem hostile_texts_read_back :
    (∀ c ∈ "ds-".toList, isSpecial c = false) ∧
      ∃ tags, readTags
          (renderIn { title := some "</title><rect fill=\"&amp;\"/>" }
            { background := "\"/><script>", line := "&quot;\x27" } ⟨0, 0, 1, 1⟩
            [⟨⟨0, 0⟩, ⟨1, 1⟩⟩]) = some tags ∧
        tags.map Tag.name = ["?xml", "svg", "title", "/title", "rect", "path", "/svg"] ∧
        textBetween? "title" "/title" tags = some "</title><rect fill=\"&amp;\"/>" ∧
        valueIn? tags "rect" "fill" = some "\"/><script>" ∧
        valueIn? tags "path" "stroke" = some "&quot;\x27" := by
  have harmless : ∀ c ∈ "ds-".toList, isSpecial c = false := by simp [isSpecial]
  obtain ⟨tags, read, names, texts⟩ :=
    texts_read_back { title := some "</title><rect fill=\"&amp;\"/>" }
      { background := "\"/><script>", line := "&quot;\x27" } ⟨0, 0, 1, 1⟩
      [⟨⟨0, 0⟩, ⟨1, 1⟩⟩] harmless
  exact ⟨harmless, tags, read, by simpa using names, by simpa using texts⟩

end Frond.Svg
