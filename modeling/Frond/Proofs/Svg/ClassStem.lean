import Mathlib
import Frond.Proofs.Svg.Containment

/-!
The class stem is written as it stands, in front of two class names. A drawing holds it together
exactly if it has neither a bracket nor a double quote in it and spells no entity.
-/

namespace Frond.Svg

def Style.withStem (style : Style) (stem : Option String) : Style :=
  { style with classStem := stem }

/-- The names of the tags that are read from a document. -/
def readNames (document : String) : Option (List String) :=
  (readTags document).map (·.map Tag.name)

/-- The class that is read from the first tag of a name. -/
def readClass (document name : String) : Option String :=
  (readTags document).bind fun tags => valueIn? tags name "class"

/-- A stem stays inside its attributes: the tags are those of a drawing without a stem, and both
classes are read back as the stem and a name. -/
structure StemContained (style : Style) (palette : Palette) (viewBox : Box Float)
    (segments : List (Segment Float)) (stem : String) : Prop where
  names :
    readNames (renderIn (style.withStem (some stem)) palette viewBox segments) =
      readNames (renderIn (style.withStem none) palette viewBox segments)
  background :
    readClass (renderIn (style.withStem (some stem)) palette viewBox segments) "rect" =
      some (stem ++ "background")
  curve : segments ≠ [] →
    readClass (renderIn (style.withStem (some stem)) palette viewBox segments) "path" =
      some (stem ++ "curve")

/-- A text up to its first double quote. -/
def upToQuote (text : String) : String := String.ofList (text.toList.takeWhile (· != '"'))

variable {style : Style} {palette : Palette} {viewBox : Box Float} {segments : List (Segment Float)}

theorem value?_class_backgroundTag (area : Box Float) (fill after : String) :
    (backgroundTag style area fill after).value? "class" =
      some (unescape (upToQuote (Element.className style "background"))) :=
  Tag.value?_first (by simp) (by simp) _ _ _ _

theorem value?_class_curveTag (stroke after : String) :
    (curveTag style segments stroke after).value? "class" =
      some (unescape (upToQuote (Element.className style "curve"))) :=
  Tag.value?_first (by simp) (by simp) _ _ _ _

section

variable {stem : String} (opened : '<' ∉ stem.toList) (closed : '>' ∉ stem.toList)

include opened closed

theorem readTags_withStem :
    readTags (renderIn (style.withStem (some stem)) palette viewBox segments) =
      some (drawingTags (style.withStem (some stem)) palette viewBox segments) :=
  readTags_renderIn opened closed

theorem readClass_rect :
    readClass (renderIn (style.withStem (some stem)) palette viewBox segments) "rect" =
      some (unescape (upToQuote (stem ++ "background"))) := by
  rw [readClass, readTags_withStem opened closed, Option.bind_some, valueIn?,
    find?_rect_drawingTags, Option.bind_some, value?_class_backgroundTag]
  rfl

theorem readClass_path (drawn : segments ≠ []) :
    readClass (renderIn (style.withStem (some stem)) palette viewBox segments) "path" =
      some (unescape (upToQuote (stem ++ "curve"))) := by
  have shown : ¬segments.isEmpty = true := by simpa using drawn
  rw [readClass, readTags_withStem opened closed, Option.bind_some, valueIn?,
    find?_path_drawingTags, if_neg shown, Option.bind_some, value?_class_curveTag]
  rfl

end

theorem readTags_withoutStem :
    readTags (renderIn (style.withStem none) palette viewBox segments) =
      some (drawingTags (style.withStem none) palette viewBox segments) :=
  readTags_renderIn List.not_mem_nil List.not_mem_nil

theorem upToQuote_append {stem : String} (plain : '"' ∉ stem.toList) {name : String}
    (plainName : '"' ∉ name.toList) : upToQuote (stem ++ name) = stem ++ name := by
  have absent : '"' ∉ (stem ++ name).toList := by
    rw [String.toList_append, List.mem_append, not_or]
    exact ⟨plain, plainName⟩
  rw [upToQuote, List.takeWhile_eq_self_iff.mpr (bne_of_not_mem absent), String.ofList_toList]

/-- What stands before a double quote is shorter than the text, with or without its entities. -/
theorem unescape_upToQuote_ne {stem : String} (quoted : '"' ∈ stem.toList) (name : String) :
    unescape (upToQuote (stem ++ name)) ≠ stem ++ name := by
  intro same
  obtain ⟨first, rest, whole, plain⟩ := List.eq_append_cons_of_mem quoted
  have cut : (upToQuote (stem ++ name)).toList = first := by
    simp [upToQuote, whole, List.takeWhile_append_of_pos (bne_of_not_mem plain)]
  have shorter := length_unescapeChars_le first
  have lengths := congrArg (fun text => text.toList.length) same
  simp only [unescape, cut, String.toList_ofList, String.toList_append, whole, List.length_append,
    List.length_cons] at lengths
  omega

theorem unescape_append {name : String} (opened : '&' ∉ name.toList) (closed : ';' ∉ name.toList)
    (stem : String) : unescape (stem ++ name) = unescape stem ++ name := by
  rw [unescape, String.toList_append, unescapeChars_append opened closed, String.ofList_append,
    String.ofList_toList, unescape]

theorem count_text_stem (c : Char) (tagName key stem name closing after : String)
    (rest : List Assignment) :
    (Tag.ofAssignments tagName (⟨key, stem ++ name⟩ :: rest) closing after).text.count c =
      stem.toList.count c +
        (Tag.ofAssignments tagName (⟨key, "" ++ name⟩ :: rest) closing after).text.count c := by
  simp only [Tag.text, Tag.ofAssignments, Tag.toList_assigned, List.flatMap_cons,
    String.toList_append, String.toList_empty, List.nil_append, List.append_assoc,
    List.cons_append, List.count_append, List.count_cons]
  omega

theorem count_backgroundTag (c : Char) (stem : String) (area : Box Float) (fill after : String) :
    (backgroundTag (style.withStem (some stem)) area fill after).text.count c =
      stem.toList.count c +
        (backgroundTag (style.withStem none) area fill after).text.count c :=
  count_text_stem c "rect" "class" stem "background" "/" after _

theorem count_curveTags (c : Char) (stem stroke : String) :
    ((curveTags (style.withStem (some stem)) segments stroke).flatMap Tag.text).count c =
      (if segments.isEmpty then 0 else 1) * stem.toList.count c +
        ((curveTags (style.withStem none) segments stroke).flatMap Tag.text).count c := by
  unfold curveTags
  split
  case isTrue => simp
  case isFalse =>
    rw [List.flatMap_singleton, List.flatMap_singleton, Nat.one_mul]
    exact count_text_stem c "path" "class" stem "curve" "/" _ _

/-- A stem is written once for the background and once for the curve, with no other effect on the
characters of a drawing. -/
theorem count_renderIn (c : Char) (stem : String) :
    (renderIn (style.withStem (some stem)) palette viewBox segments).toList.count c =
      (if segments.isEmpty then 1 else 2) * stem.toList.count c +
        (renderIn (style.withStem none) palette viewBox segments).toList.count c := by
  -- Of the style only the class names read the stem.
  have layout (kept : Option String) : newline (style.withStem kept) = newline style := rfl
  have gap (kept : Option String) : indent (style.withStem kept) = indent style := rfl
  have declared (kept : Option String) :
      declarationTags (style.withStem kept) = declarationTags style := rfl
  have titled (kept : Option String) : titleTags (style.withStem kept) = titleTags style := rfl
  rw [toList_renderIn, toList_renderIn]
  simp only [drawingTags, List.flatMap_append, List.flatMap_cons, List.count_append,
    count_backgroundTag, count_curveTags, layout, gap, declared, titled]
  split <;> omega

namespace StemContained

variable {stem : String} (contained : StemContained style palette viewBox segments stem)

include contained

/-- A bracket in the stem is one too many: a document has as many as tags. -/
theorem bracket_not_mem {c : Char} (bracket : c = '<' ∨ c = '>') : c ∉ stem.toList := by
  have plain : readTags (renderIn (style.withStem none) palette viewBox segments) = _ :=
    readTags_withoutStem
  have names := contained.names
  rw [readNames, readNames, plain, Option.map_some, Option.map_eq_some_iff] at names
  obtain ⟨tags, read, same⟩ := names
  have lengths := congrArg List.length same
  rw [List.length_map, List.length_map] at lengths
  -- As many tags as without the stem, so as many brackets; but those of the stem came on top.
  have written := count_of_readTags read bracket
  have bare := count_of_readTags plain bracket
  rw [count_renderIn, bare, lengths] at written
  apply List.count_eq_zero.mp
  split at written <;> omega

theorem readClass_background :
    unescape (upToQuote (stem ++ "background")) = stem ++ "background" := by
  have read := contained.background
  rw [readClass_rect (contained.bracket_not_mem (.inl rfl)) (contained.bracket_not_mem (.inr rfl))]
    at read
  exact Option.some.inj read

theorem quote_not_mem : '"' ∉ stem.toList := by
  intro quoted
  exact unescape_upToQuote_ne quoted "background" contained.readClass_background

theorem unescape_eq : unescape stem = stem := by
  have read := contained.readClass_background
  rw [upToQuote_append contained.quote_not_mem (by simp), unescape_append (by simp) (by simp)]
    at read
  exact String.append_left_inj _ |>.mp read

end StemContained

/-- A stem is contained exactly if it has no bracket and no double quote in it and spells no
entity. Nothing else in the drawing has a part in that. -/
theorem stemContained_iff (style : Style) (palette : Palette) (viewBox : Box Float)
    (segments : List (Segment Float)) (stem : String) :
    StemContained style palette viewBox segments stem ↔
      '<' ∉ stem.toList ∧ '>' ∉ stem.toList ∧ '"' ∉ stem.toList ∧ unescape stem = stem := by
  constructor
  · intro contained
    exact ⟨contained.bracket_not_mem (.inl rfl), contained.bracket_not_mem (.inr rfl),
      contained.quote_not_mem, contained.unescape_eq⟩
  · rintro ⟨opened, closed, plain, spelt⟩
    constructor
    · rw [readNames, readNames, readTags_withStem opened closed, readTags_withoutStem,
        Option.map_some, Option.map_some, map_name_drawingTags, map_name_drawingTags]
      rfl
    · rw [readClass_rect opened closed, upToQuote_append plain (by simp),
        unescape_append (by simp) (by simp), spelt]
    · intro drawn
      rw [readClass_path opened closed drawn, upToQuote_append plain (by simp),
        unescape_append (by simp) (by simp), spelt]

/-- A double quote in the stem ends the class at once. -/
theorem not_contained_quote : ¬StemContained {} {} ⟨0, 0, 10, 10⟩ [⟨⟨0, 0⟩, ⟨10, 10⟩⟩] "\"" := by
  intro contained
  exact contained.quote_not_mem (by simp)

end Frond.Svg
