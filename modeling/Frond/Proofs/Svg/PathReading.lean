import Frond.Proofs.Number.Characters
import Frond.Proofs.Number.Equality
import Frond.Svg.Path

/-!
A reader of path texts. It cuts a text at single blanks, takes the parts two by two for commands,
and follows the pen. What it draws from the text of a path is one line for every segment, with the
very numbers of that segment, and the pen is lifted as often as the segments jump and no oftener.
-/

namespace Frond

def Point.map {α β : Type} (f : α → β) (p : Point α) : Point β := ⟨f p.x, f p.y⟩

def Segment.map {α β : Type} (f : α → β) (segment : Segment α) : Segment β :=
  ⟨segment.start.map f, segment.stop.map f⟩

namespace Svg

/-- The parts of a text between single blanks; the empty text has none. -/
def parts (text : String) : List (List Char) :=
  if text.isEmpty then [] else text.toList.splitOn ' '

/-- Parts read two by two: a letter and a first number, and a second number. -/
def readCommands : List (List Char) → Option (List (PenCommand String))
  | [] => some []
  | ('M' :: x) :: y :: rest => (.moveTo ⟨.ofList x, .ofList y⟩ :: ·) <$> readCommands rest
  | ('L' :: x) :: y :: rest => (.lineTo ⟨.ofList x, .ofList y⟩ :: ·) <$> readCommands rest
  | _ => none

/-- The commands that the text of a path spells. -/
def readPath (text : String) : Option (List (PenCommand String)) := readCommands (parts text)

/-- The lines that a pen draws; there is none to draw while the pen is nowhere. -/
def trace (pen : Option (Point String)) : List (PenCommand String) → Option (List (Segment String))
  | [] => some []
  | .moveTo p :: rest => trace (some p) rest
  | .lineTo p :: rest =>
    match pen with
    | some here => (⟨here, p⟩ :: ·) <$> trace (some p) rest
    | none => none

def PenCommand.isMove {α : Type} : PenCommand α → Bool
  | moveTo _ => true
  | lineTo _ => false

def PenCommand.map {α β : Type} (f : α → β) : PenCommand α → PenCommand β
  | moveTo p => .moveTo (p.map f)
  | lineTo p => .lineTo (p.map f)

/-- How often segments jump: the first one does, and so does every one that does not start where
the one before it ends. -/
def jumps {α : Type} [BEq α] : List (Segment α) → Nat
  | [] => 0
  | first :: rest =>
    1 + ((first :: rest).zip rest).countP fun (before, after) => before.stop != after.start

variable {α : Type}

/-- The commands for segments, from the place of the pen on. -/
def commandsFrom [BEq α] (pen : Option (Point α)) : List (Segment α) → List (PenCommand α)
  | [] => []
  | segment :: rest => penCommands pen segment ++ commandsFrom (some segment.stop) rest

theorem foldl_add_commands [BEq α] (segments : List (Segment α)) (path : Path α) :
    (segments.foldl Path.add path).commands.toList =
      path.commands.toList ++ commandsFrom path.pen segments := by
  induction segments generalizing path with
  | nil => simp [commandsFrom]
  | cons segment rest ih =>
      rw [List.foldl_cons, ih]
      simp [Path.add, commandsFrom]

theorem ofSegments_commands [BEq α] (segments : List (Segment α)) :
    (Path.ofSegments segments).commands.toList = commandsFrom none segments :=
  foldl_add_commands segments {}

theorem countP_penCommands [BEq α] (pen : Option (Point α)) (segment : Segment α) :
    (penCommands pen segment).countP PenCommand.isMove =
      if lifts pen segment.start = true then 1 else 0 := by
  simp only [penCommands]
  split <;> rfl

/-- A pen that is put down somewhere is lifted as often as the segments after that jump. -/
theorem countP_commandsFrom [BEq α] (before : Segment α) (segments : List (Segment α)) :
    (commandsFrom (some before.stop) segments).countP PenCommand.isMove =
      ((before :: segments).zip segments).countP
        fun (before, after) => before.stop != after.start := by
  induction segments generalizing before with
  | nil => rfl
  | cons segment rest ih =>
      rw [commandsFrom, List.countP_append, countP_penCommands, ih, List.zip_cons_cons,
        List.countP_cons, Nat.add_comm]
      rfl

theorem countP_commandsFrom_none [BEq α] (segments : List (Segment α)) :
    (commandsFrom none segments).countP PenCommand.isMove = jumps segments := by
  cases segments with
  | nil => rfl
  | cons first rest =>
      rw [commandsFrom, List.countP_append, countP_penCommands, countP_commandsFrom]
      rfl

section

variable [Numeral α]

/-- The two parts that a command is written as. -/
def PenCommand.parts : PenCommand α → List (List Char)
  | moveTo p => ['M' :: numeral p.x, numeral p.y]
  | lineTo p => ['L' :: numeral p.x, numeral p.y]

/-- The texts of commands, joined by blanks, are their parts joined by blanks. -/
theorem intercalate_text (commands : List (PenCommand α)) :
    (" ".intercalate (commands.map PenCommand.text)).toList =
      List.intercalate [' '] (commands.flatMap PenCommand.parts) := by
  induction commands with
  | nil => rfl
  | cons command rest ih =>
      cases rest with
      | nil =>
          cases command <;> simp [PenCommand.text, PenCommand.parts, pointText, numeralText]
      | cons next rest =>
          have more : (next :: rest).flatMap PenCommand.parts ≠ [] := by
            cases next <;> simp [PenCommand.parts]
          have cut : (command :: next :: rest).flatMap PenCommand.parts =
              command.parts ++ (next :: rest).flatMap PenCommand.parts := List.flatMap_cons
          rw [List.map_cons, String.intercalate_cons_of_ne_nil (by simp), String.toList_append, ih,
            cut]
          generalize (next :: rest).flatMap PenCommand.parts = others at more ⊢
          cases command <;>
            simp [PenCommand.text, PenCommand.parts, pointText, numeralText,
              List.intercalate_cons_of_ne_nil more]

theorem readCommands_parts (commands : List (PenCommand α)) :
    readCommands (commands.flatMap PenCommand.parts) =
      some (commands.map (PenCommand.map numeralText)) := by
  induction commands with
  | nil => rfl
  | cons command rest ih =>
      cases command <;>
        simp [PenCommand.parts, readCommands, ih, PenCommand.map, Point.map, numeralText]

theorem PenCommand.blank_not_mem_parts (blankless : ∀ a : α, ' ' ∉ numeral a)
    (command : PenCommand α) : ∀ part ∈ command.parts, ' ' ∉ part := by
  cases command <;> simp [parts, blankless]

theorem toList_pathText [BEq α] (segments : List (Segment α)) :
    (pathText segments).toList =
      List.intercalate [' '] ((commandsFrom none segments).flatMap PenCommand.parts) := by
  rw [pathText, intercalate_text, ofSegments_commands]

/-- Cutting the text of a path at blanks gives the parts of its commands back. -/
theorem parts_pathText [BEq α] (blankless : ∀ a : α, ' ' ∉ numeral a)
    (segments : List (Segment α)) :
    parts (pathText segments) = (commandsFrom none segments).flatMap PenCommand.parts := by
  cases segments with
  | nil => rfl
  | cons first rest =>
      have spelt := toList_pathText (first :: rest)
      have written : (pathText (first :: rest)).isEmpty = false := by
        rw [Bool.eq_false_iff, ne_eq, String.isEmpty_iff, ← String.toList_eq_nil_iff, spelt]
        simp [commandsFrom, penCommands, lifts, PenCommand.parts]
      rw [parts, written, spelt]
      apply List.splitOn_intercalate
      · intro part member
        obtain ⟨command, _, inside⟩ := List.mem_flatMap.mp member
        exact command.blank_not_mem_parts blankless part inside
      · simp [commandsFrom, penCommands, lifts, PenCommand.parts]

/-- The reader follows the pen: where the writer leaves a lift out, the pen is at a point that is
equal to the start of the segment, and so it is written alike. -/
theorem trace_commandsFrom [BEq α]
    (alike : ∀ p q : Point α, (p == q) = true → p.map numeralText = q.map numeralText)
    (segments : List (Segment α)) (pen : Option (Point α)) :
    trace (pen.map (Point.map numeralText))
        ((commandsFrom pen segments).map (PenCommand.map numeralText)) =
      some (segments.map (Segment.map numeralText)) := by
  induction segments generalizing pen with
  | nil => rfl
  | cons segment rest ih =>
      have later := ih (some segment.stop)
      rw [Option.map_some] at later
      simp only [commandsFrom, penCommands]
      split
      case isTrue lifted =>
        simp only [List.cons_append, List.nil_append, List.map_cons, PenCommand.map, trace, later]
        rfl
      case isFalse kept =>
        cases pen with
        | none => exact absurd rfl kept
        | some here =>
            have same : (here == segment.start) = true := by
              simpa [lifts, bne] using kept
            simp only [List.cons_append, List.nil_append, List.map_cons, PenCommand.map, trace,
              Option.map_some, later, alike here segment.start same]
            rfl

end

/-- Points that are equal as numbers are written alike. -/
theorem map_numeralText_congr (p q : Point Float) (equal : (p == q) = true) :
    p.map numeralText = q.map numeralText := by
  change (p.x == q.x && p.y == q.y) = true at equal
  obtain ⟨x, y⟩ := Bool.and_eq_true_iff.mp equal
  simp only [Point.map, numeralText, numeral_congr x, numeral_congr y]

/-- Reading the text of a path gives every segment back, in order and with its four numbers as they
are written, and the pen is lifted as often as the segments jump. -/
theorem readPath_pathText (segments : List (Segment Float)) :
    ∃ commands, readPath (pathText segments) = some commands ∧
      trace none commands = some (segments.map (Segment.map numeralText)) ∧
      commands.countP PenCommand.isMove = jumps segments := by
  have cut := parts_pathText (not_mem_numeral (c := ' ') rfl) segments
  refine ⟨(commandsFrom none segments).map (PenCommand.map numeralText), ?_, ?_, ?_⟩
  · rw [readPath, cut, readCommands_parts]
  · exact trace_commandsFrom map_numeralText_congr segments none
  · rw [List.countP_map, ← countP_commandsFrom_none]
    exact List.countP_congr fun command _ => by cases command <;> rfl

end Svg

end Frond
