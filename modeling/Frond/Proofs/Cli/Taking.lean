import Frond.Proofs.Cli.Values
import Frond.Proofs.Cli.Words

/-!
What is taken from a command line piece by piece. A value that waits is judged before the next piece
is taken, so that what is given is taken in order.
-/

namespace Frond.Cli

namespace Progress

variable {progress settled next : Progress} {arguments : Arguments}

theorem note_eq_ok_iff {name : Name} :
    progress.note name = .ok next ↔
      name ∉ progress.given ∧ next = { progress with given := progress.given ++ [name] } := by
  rw [note]
  split
  case isTrue again => exact ⟨nofun, fun ⟨fresh, _⟩ => absurd again fresh⟩
  case isFalse fresh =>
    rw [Except.ok.injEq, eq_comm, and_iff_right fresh]

theorem assign_eq_ok_iff {p : Parameter} {text : String} :
    progress.assign p text = .ok next ↔
      Name.parameter p ∉ progress.given ∧ ∃ assigned,
        progress.arguments.assign p text = .ok assigned ∧
          next = { progress with
            arguments := assigned, given := progress.given ++ [.parameter p] } := by
  rw [assign, bind_eq_ok_iff]
  simp only [note_eq_ok_iff, bind_eq_ok_iff]
  constructor
  · rintro ⟨_, ⟨fresh, rfl⟩, assigned, given, taken⟩
    cases taken
    exact ⟨fresh, assigned, given, rfl⟩
  · rintro ⟨fresh, assigned, given, rfl⟩
    exact ⟨_, ⟨fresh, rfl⟩, assigned, given, rfl⟩

theorem settle_of_ready (ready : progress.waiting = none) : progress.settle = .ok progress := by
  rw [settle, ready]

/-- Nothing waits any longer once the value that waits was judged. -/
theorem waiting_of_settle (judged : progress.settle = .ok settled) : settled.waiting = none := by
  rw [settle] at judged
  split at judged
  case h_1 ready =>
    cases judged
    exact ready
  case h_2 => cases judged
  case h_3 =>
    obtain ⟨_, _, _, rfl⟩ := assign_eq_ok_iff.mp judged
    rfl

theorem take_flag_eq_ok_iff {f : Flag} :
    progress.take (.flag f) = .ok next ↔
      ∃ settled, progress.settle = .ok settled ∧ f ≠ .help ∧ Name.flag f ∉ settled.given ∧
        next = { settled with
          given := settled.given ++ [.flag f], arguments := settled.arguments.raise f } := by
  rw [take, bind_eq_ok_iff]
  simp only [mapError_eq_ok_iff]
  refine exists_congr fun settled => and_congr_right fun _ => ?_
  by_cases help : f = .help
  · rw [if_pos help]
    exact ⟨nofun, fun ⟨other, _⟩ => absurd help other⟩
  · rw [if_neg help, and_iff_right help]
    simp only [bind_eq_ok_iff, mapError_eq_ok_iff, note_eq_ok_iff]
    constructor
    · rintro ⟨_, ⟨fresh, rfl⟩, taken⟩
      cases taken
      exact ⟨fresh, rfl⟩
    · rintro ⟨fresh, rfl⟩
      exact ⟨_, ⟨fresh, rfl⟩, rfl⟩

theorem take_awaiting_eq_ok_iff {p : Parameter} :
    progress.take (.parameter p none) = .ok next ↔
      ∃ settled, progress.settle = .ok settled ∧
        next = { settled with waiting := some (p, none) } := by
  rw [take, mapError_eq_ok_iff]
  cases progress.settle with
  | error e => simp [Except.map]
  | ok settled => simp [Except.map, eq_comm]

theorem take_parameter_eq_ok_iff {p : Parameter} {text : String} :
    progress.take (.parameter p (some text)) = .ok next ↔
      ∃ settled, progress.settle = .ok settled ∧ settled.assign p text = .ok next := by
  rw [take, mapError_eq_ok_iff, bind_eq_ok_iff]

/-- There is nothing more to judge once the value that waits was judged. -/
theorem settle_settle {reached : Progress → Prop} :
    (∃ settled, progress.settle = .ok settled ∧
      ∃ again, settled.settle = .ok again ∧ reached again) ↔
      ∃ settled, progress.settle = .ok settled ∧ reached settled := by
  refine exists_congr fun settled => and_congr_right fun judged => ?_
  rw [settle_of_ready (waiting_of_settle judged)]
  simp only [Except.ok.injEq, exists_eq_left']

/-- The value that waits is judged before a piece is taken. -/
theorem take_eq_ok_iff {piece : Piece} :
    progress.take piece = .ok next ↔
      ∃ settled, progress.settle = .ok settled ∧ settled.take piece = .ok next := by
  rcases piece with f | ⟨p, _ | text⟩ | ⟨f, value⟩ | shown
  · simp only [take_flag_eq_ok_iff, settle_settle]
  · simp only [take_awaiting_eq_ok_iff, settle_settle]
  · simp only [take_parameter_eq_ok_iff, settle_settle]
  all_goals
    refine ⟨nofun, ?_⟩
    rintro ⟨settled, _, taken⟩
    cases taken

theorem foldlM_take_eq_ok_iff {pieces : List Piece} (filled : pieces ≠ []) :
    pieces.foldlM take progress = .ok next ↔
      ∃ settled, progress.settle = .ok settled ∧ pieces.foldlM take settled = .ok next := by
  obtain ⟨piece, rest, rfl⟩ := List.exists_cons_of_ne_nil filled
  simp only [List.foldlM_cons, bind_eq_ok_iff]
  constructor
  · rintro ⟨first, taken, later⟩
    obtain ⟨settled, judged, taken⟩ := take_eq_ok_iff.mp taken
    exact ⟨settled, judged, first, taken, later⟩
  · rintro ⟨settled, judged, first, taken, later⟩
    exact ⟨first, take_eq_ok_iff.mpr ⟨settled, judged, taken⟩, later⟩

theorem not_refused_of_foldlM {pieces : List Piece}
    (taken : pieces.foldlM take progress = .ok next) : ∀ piece ∈ pieces, ¬piece.Refused := by
  induction pieces generalizing progress with
  | nil => exact nofun
  | cons piece rest ih =>
      rw [List.foldlM_cons] at taken
      obtain ⟨first, here, later⟩ := bind_eq_ok_iff.mp taken
      refine List.forall_mem_cons.mpr ⟨?_, ih later⟩
      rintro (⟨shown, rfl⟩ | ⟨flag, value, rfl⟩) <;> cases here

/-- Takes what is given, in order. -/
def takeGiven (progress : Progress) (given : List Given) : Except Stop Progress :=
  (given.map Given.piece).foldlM take progress

/-- A command line as far as it is read, where the value of a parameter is awaited or none is. -/
def awaiting (progress : Progress) (awaited : Option Parameter) : Progress :=
  { progress with waiting := awaited.map (·, none) }

theorem awaiting_none (ready : progress.waiting = none) : progress.awaiting none = progress := by
  obtain ⟨arguments, given, waiting⟩ := progress
  cases ready
  rfl

theorem ready_of_takeGiven {given : List Given} (ready : progress.waiting = none)
    (taken : progress.takeGiven given = .ok next) : next.waiting = none := by
  induction given generalizing progress with
  | nil =>
      cases taken
      exact ready
  | cons g rest ih =>
      rw [takeGiven, List.map_cons, List.foldlM_cons] at taken
      obtain ⟨first, here, later⟩ := bind_eq_ok_iff.mp taken
      apply ih _ later
      cases g with
      | flag f =>
          obtain ⟨settled, judged, _, _, rfl⟩ := take_flag_eq_ok_iff.mp here
          have judged : settled.waiting = none := waiting_of_settle judged
          exact judged
      | parameter p text =>
          obtain ⟨settled, judged, assigned⟩ := take_parameter_eq_ok_iff.mp here
          obtain ⟨_, _, _, rfl⟩ := assign_eq_ok_iff.mp assigned
          have judged : settled.waiting = none := waiting_of_settle judged
          exact judged

theorem takeGiven_append {given later : List Given} :
    progress.takeGiven (given ++ later) = .ok next ↔
      ∃ middle, progress.takeGiven given = .ok middle ∧ middle.takeGiven later = .ok next := by
  rw [takeGiven, List.map_append, List.foldlM_append, bind_eq_ok_iff]
  rfl

/-- The pieces of a word are taken as what it gives, and then a value may be awaited. -/
theorem foldlM_spelling {given : List Given} {awaited : Option Parameter}
    (ready : progress.waiting = none) :
    (Piece.spelling given awaited).foldlM take progress = .ok next ↔
      ∃ middle, progress.takeGiven given = .ok middle ∧ next = middle.awaiting awaited := by
  rw [Piece.spelling, List.foldlM_append, bind_eq_ok_iff]
  refine exists_congr fun middle => and_congr_right fun taken => ?_
  have ready := ready_of_takeGiven ready taken
  cases awaited with
  | none =>
      rw [awaiting_none ready, eq_comm (a := next)]
      exact Iff.of_eq (Except.ok.injEq middle next)
  | some p =>
      rw [Option.toList_some, List.map_singleton, List.foldlM_cons, bind_eq_ok_iff]
      simp only [take_awaiting_eq_ok_iff, settle_of_ready ready, Except.ok.injEq, exists_eq_left']
      constructor
      · rintro ⟨_, rfl, taken⟩
        cases taken
        rfl
      · rintro rfl
        exact ⟨_, rfl, rfl⟩

end Progress

end Frond.Cli
