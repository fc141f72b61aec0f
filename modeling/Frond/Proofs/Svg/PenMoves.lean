import Frond.Proofs.Svg.PathReading

/-!
Where the pen is lifted. Each segment of a path has one line, and in front of it a lift of the pen
exactly if the pen is not at the start of the segment when its turn comes. So the lines before a lift
tell which segment it is for.
-/

namespace Frond.Svg

variable {α : Type}

/-- How many lines there are among commands. -/
def lineCount (commands : List (PenCommand α)) : Nat :=
  commands.countP fun command => !command.isMove

@[simp] theorem lineCount_moveTo (p : Point α) (rest : List (PenCommand α)) :
    lineCount (.moveTo p :: rest) = lineCount rest :=
  List.countP_cons_of_neg Bool.false_ne_true

@[simp] theorem lineCount_lineTo (p : Point α) (rest : List (PenCommand α)) :
    lineCount (.lineTo p :: rest) = lineCount rest + 1 := List.countP_cons_of_pos rfl

theorem isMove_map {β : Type} (f : α → β) (command : PenCommand α) :
    (command.map f).isMove = command.isMove := by
  cases command <;> rfl

theorem countP_map_isMove {β : Type} (kind : Bool → Bool) (f : α → β)
    (commands : List (PenCommand α)) :
    (commands.map (PenCommand.map f)).countP (fun command => kind command.isMove) =
      commands.countP fun command => kind command.isMove := by
  rw [List.countP_map]
  exact List.countP_congr fun command _ => by rw [Function.comp_apply, isMove_map]

theorem countP_isMove_map {β : Type} (f : α → β) (commands : List (PenCommand α)) :
    (commands.map (PenCommand.map f)).countP PenCommand.isMove =
      commands.countP PenCommand.isMove := countP_map_isMove id f commands

theorem lineCount_map {β : Type} (f : α → β) (commands : List (PenCommand α)) :
    lineCount (commands.map (PenCommand.map f)) = lineCount commands :=
  countP_map_isMove not f commands

/-- Where the pen is when a segment has its turn: at the end of the segment before it. -/
def penBefore (pen : Option (Point α)) (segments : List (Segment α)) : Nat → Option (Point α)
  | 0 => pen
  | number + 1 => segments[number]?.map Segment.stop

/-- How often the commands of a path lift the pen. -/
def Path.lifted (path : Path α) : Nat := path.commands.toList.countP PenCommand.isMove

variable [BEq α]

/-- The segment of this number starts at a point where the pen is not. -/
def LiftsAt (pen : Option (Point α)) (segments : List (Segment α)) (number : Nat)
    (target : Point α) : Prop :=
  ∃ segment, segments[number]? = some segment ∧ segment.start = target ∧
    lifts (penBefore pen segments number) target = true

theorem LiftsAt.cons {pen : Option (Point α)} {segment : Segment α} {rest : List (Segment α)}
    {number : Nat} {target : Point α} (later : LiftsAt (some segment.stop) rest number target) :
    LiftsAt pen (segment :: rest) (number + 1) target := by
  obtain ⟨found, place, start, lifted⟩ := later
  refine ⟨found, place, start, ?_⟩
  cases number <;> exact lifted

/-- A lift is for the segment that has as many before it as there are lines before the lift, and only
the lift for the first segment is the first command. -/
theorem liftsAt_of_moveTo {pen : Option (Point α)} {segments : List (Segment α)}
    {front rest : List (PenCommand α)} {target : Point α}
    (split : commandsFrom pen segments = front ++ .moveTo target :: rest) :
    (front = [] ∨ 0 < lineCount front) ∧ LiftsAt pen segments (lineCount front) target := by
  induction segments generalizing pen front with
  | nil => exact absurd split (by simp [commandsFrom])
  | cons segment later ih =>
      rw [commandsFrom, penCommands] at split
      by_cases lifted : lifts pen segment.start = true
      · rw [if_pos lifted] at split
        rcases front with _ | ⟨first, _ | ⟨second, before⟩⟩
        · injection split with begun _
          injection begun with start
          subst start
          exact ⟨.inl rfl, segment, rfl, rfl, lifted⟩
        · cases split
        · injection split with begun tail
          injection tail with drawn further
          subst begun drawn
          rw [lineCount_moveTo, lineCount_lineTo]
          exact ⟨.inr (Nat.succ_pos _), (ih further).2.cons⟩
      · rw [if_neg lifted] at split
        rcases front with _ | ⟨first, before⟩
        · cases split
        · injection split with drawn further
          subst drawn
          rw [lineCount_lineTo]
          exact ⟨.inr (Nat.succ_pos _), (ih further).2.cons⟩

theorem lifted_add (path : Path α) (segment : Segment α) :
    (path.add segment).lifted = path.lifted + if lifts path.pen segment.start then 1 else 0 := by
  simp only [Path.lifted, Path.add, Array.toList_appendList, List.countP_append,
    countP_penCommands]

theorem ofSegments_concat (segments : List (Segment α)) (segment : Segment α) :
    Path.ofSegments (segments ++ [segment]) = (Path.ofSegments segments).add segment := by
  rw [Path.ofSegments, List.foldl_append]
  rfl

variable [Numeral α]

/-- A reader finds the commands in the text of a path that it was written from. -/
theorem readPath_eq (blankless : ∀ a : α, ' ' ∉ numeral a) (segments : List (Segment α)) :
    readPath (pathText segments) =
      some ((commandsFrom none segments).map (PenCommand.map numeralText)) := by
  rw [readPath, parts_pathText blankless, readCommands_parts]

/-- The same of commands whose numbers have been written. -/
theorem liftsAt_of_written {segments : List (Segment α)} {front rest : List (PenCommand String)}
    {target : Point String}
    (split : (commandsFrom none segments).map (PenCommand.map numeralText) =
      front ++ .moveTo target :: rest) :
    (front = [] ∨ 0 < lineCount front) ∧
      ∃ p : Point α, p.map numeralText = target ∧ LiftsAt none segments (lineCount front) p := by
  obtain ⟨before, remaining, parted, rfl, written⟩ := List.map_eq_append_iff.mp split
  obtain ⟨command, after, rfl, move, _⟩ := List.map_eq_cons_iff.mp written
  cases command with
  | lineTo p => cases move
  | moveTo p =>
      injection move with same
      obtain ⟨counted, lifted⟩ := liftsAt_of_moveTo parted
      rw [lineCount_map, List.map_eq_nil_iff]
      exact ⟨counted, p, same, lifted⟩

end Frond.Svg
