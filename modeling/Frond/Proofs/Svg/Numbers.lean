import Mathlib
import Frond.Proofs.Number.Plain
import Frond.Proofs.Svg.Colours

/-!
The numbers of a document. A reader finds them in the view box, in the rectangle and in the path,
and they are the numerals of the coordinates that were drawn. So all of them are plain exactly when
all of these coordinates are finite.
-/

namespace Frond

def Box.numbers {α : Type} (box : Box α) : List α := [box.x, box.y, box.width, box.height]

namespace Svg

def PenCommand.numbers {α : Type} : PenCommand α → List α
  | moveTo p | lineTo p => [p.x, p.y]

/-- The numbers that are written for a drawing; the rectangle covers the view box. -/
def numbers (viewBox : Box Float) (segments : List (Segment Float)) : List Float :=
  viewBox.numbers ++ viewBox.numbers ++ (commandsFrom none segments).flatMap PenCommand.numbers

/-- Where the pen is after a command. -/
def PenCommand.point {α : Type} : PenCommand α → Point α
  | moveTo p | lineTo p => p

theorem PenCommand.numbers_eq {α : Type} (command : PenCommand α) :
    command.numbers = [command.point.x, command.point.y] := by
  cases command <;> rfl

/-- The pen only goes to ends of segments. -/
theorem exists_end_of_mem_commandsFrom {α : Type} [BEq α] {command : PenCommand α}
    {segments : List (Segment α)} {pen : Option (Point α)}
    (member : command ∈ commandsFrom pen segments) :
    ∃ segment ∈ segments, command.point = segment.start ∨ command.point = segment.stop := by
  induction segments generalizing pen with
  | nil => cases member
  | cons segment rest ih =>
      rcases List.mem_append.mp member with first | later
      · refine ⟨segment, List.mem_cons_self, ?_⟩
        rw [penCommands] at first
        split at first
        · rcases List.mem_cons.mp first with rfl | line
          · exact .inl rfl
          · rw [List.mem_singleton.mp line]
            exact .inr rfl
        · rw [List.mem_singleton.mp first]
          exact .inr rfl
      · obtain ⟨other, drawn, found⟩ := ih later
        exact ⟨other, List.mem_cons_of_mem _ drawn, found⟩

theorem mem_numbers_commandsFrom {value : Float} {segments : List (Segment Float)}
    {pen : Option (Point Float)}
    (written : value ∈ (commandsFrom pen segments).flatMap PenCommand.numbers) :
    ∃ segment ∈ segments, ∃ point, (point = segment.start ∨ point = segment.stop) ∧
      (value = point.x ∨ value = point.y) := by
  obtain ⟨command, listed, coordinate⟩ := List.mem_flatMap.mp written
  obtain ⟨segment, drawn, stands⟩ := exists_end_of_mem_commandsFrom listed
  refine ⟨segment, drawn, command.point, stands, ?_⟩
  rw [command.numbers_eq] at coordinate
  simpa using coordinate

/-- The words that stand in a document where its numbers do: in the view box, in the four sides of
the rectangle, and in the path if there is one. -/
def numberWords (document : String) : Option (List String) := do
  let tags ← readTags document
  let box ← writtenIn? tags "svg" "viewBox"
  let sides ← ["x", "y", "width", "height"].mapM (writtenIn? tags "rect")
  let commands ← readPath ((writtenIn? tags "path" "d").getD "")
  return (parts box).map String.ofList ++ sides ++ commands.flatMap PenCommand.numbers

variable {style : Style} {palette : Palette} {viewBox : Box Float} {segments : List (Segment Float)}

theorem find?_svg_drawingTags :
    (drawingTags style palette viewBox segments).find? (·.name == "svg") =
      some (openingTag viewBox (newline style ++ indent style)) := by
  simp [drawingTags, find?_declarationTags]

theorem written_openingTag (viewBox : Box Float) (after : String) :
    (openingTag viewBox after).written? "viewBox" = some (viewBoxText viewBox) := by
  have box := not_mem_of_chars (c := '"') rfl (viewBoxText_chars viewBox)
  rw [openingTag, Tag.written?_ofAssignments (by simp) (by simp) (by simp) (by simp)
    (by simp [box])]
  rfl

theorem parts_viewBoxText {α : Type} [Numeral α] (blankless : ∀ a : α, ' ' ∉ numeral a)
    (box : Box α) : (parts (viewBoxText box)).map String.ofList = box.numbers.map numeralText := by
  have spelt : (viewBoxText box).toList = List.intercalate [' '] (box.numbers.map numeral) := by
    simp [viewBoxText, Box.numbers, numeralText]
  have written : (viewBoxText box).isEmpty = false := by
    rw [Bool.eq_false_iff, ne_eq, String.isEmpty_iff, ← String.toList_eq_nil_iff, spelt]
    simp [Box.numbers, List.intercalate]
  have cut : parts (viewBoxText box) = box.numbers.map numeral := by
    rw [parts, written, spelt]
    apply List.splitOn_intercalate
    · intro part member
      obtain ⟨value, _, rfl⟩ := List.mem_map.mp member
      exact blankless value
    · simp [Box.numbers]
  rw [cut, List.map_map]
  rfl

/-- A reader finds the numerals of a drawing if no character of markup stands in the class names. -/
theorem numberWords_renderIn
    (harmless : ∀ c ∈ (style.classStem.getD "").toList, isSpecial c = false) :
    numberWords (renderIn style palette viewBox segments) =
      some ((numbers viewBox segments).map numeralText) := by
  have absent {c : Char} (special : isSpecial c = true) :
      c ∉ (style.classStem.getD "").toList := by
    intro member
    rw [harmless c member] at special
    cases special
  have sides : ["x", "y", "width", "height"].mapM
      (writtenIn? (drawingTags style palette viewBox segments) "rect") =
        some (viewBox.numbers.map numeralText) := by
    simp only [List.mapM_cons, List.mapM_nil, writtenIn?, find?_rect_drawingTags,
      Option.bind_some, written_backgroundTag (absent rfl)]
    rfl
  have path : (writtenIn? (drawingTags style palette viewBox segments) "path" "d").getD "" =
      pathText segments := by
    rw [writtenIn?, find?_path_drawingTags]
    split
    case isTrue empty =>
      rw [List.isEmpty_iff.mp empty]
      rfl
    case isFalse drawn =>
      rw [Option.bind_some, written_curveTag (absent rfl)]
      rfl
  have commands : readPath (pathText segments) =
      some ((commandsFrom none segments).map (PenCommand.map numeralText)) := by
    rw [readPath, parts_pathText (not_mem_numeral (c := ' ') rfl), readCommands_parts]
  have points : ((commandsFrom none segments).map (PenCommand.map numeralText)).flatMap
      PenCommand.numbers =
        ((commandsFrom none segments).flatMap PenCommand.numbers).map numeralText := by
    rw [List.flatMap_map, List.map_flatMap]
    apply List.flatMap_congr
    intro command _
    cases command <;> rfl
  simp only [numberWords, readTags_renderIn (absent rfl) (absent rfl), writtenIn?,
    find?_svg_drawingTags, bind, Option.bind_some, written_openingTag] at sides path ⊢
  rw [sides, path, Option.bind_some, commands, Option.bind_some, points,
    parts_viewBoxText (not_mem_numeral rfl)]
  simp only [numbers, List.map_append]
  rfl

/-- The usual class names have no character of markup in them. -/
theorem harmless_titled (name : String) :
    ∀ c ∈ ((({} : Style).titled name).classStem.getD "").toList, isSpecial c = false := by
  simp [isSpecial, classStem_titled]

theorem plain_words_iff {words : List String}
    (harmless : ∀ c ∈ (style.classStem.getD "").toList, isSpecial c = false)
    (read : numberWords (renderIn style palette viewBox segments) = some words) :
    (∀ word ∈ words, Plain word) ↔ ∀ value ∈ numbers viewBox segments, value.isFinite = true := by
  rw [numberWords_renderIn harmless, Option.some_inj] at read
  subst read
  simp only [List.forall_mem_map, plain_numeralText_iff]

end Svg

end Frond
