import Frond.Proofs.Cli.Taking

/-!
What is read from a command line, word by word. It is what the words spell, taken in order; the
value that is met last is judged at the end.
-/

namespace Frond.Cli

namespace Progress

variable {progress settled next : Progress} {arguments : Arguments}

/-- One of these at most can be given. -/
def exclusive? : Name → Option Parameter
  | .parameter .output => some .output
  | .parameter .sequence => some .sequence
  | _ => none

theorem finish_eq_ok_iff :
    progress.finish = .ok arguments ↔
      ∃ settled, progress.settle = .ok settled ∧
        (settled.given.filterMap exclusive?).length ≤ 1 ∧ arguments = settled.arguments := by
  rw [finish, bind_eq_ok_iff]
  refine exists_congr fun settled => and_congr_right fun _ => ?_
  dsimp only
  generalize filtered : List.filterMap _ settled.given = met
  have same : settled.given.filterMap exclusive? = met := filtered
  rw [same]
  split
  case h_1 first second rest =>
    constructor
    · intro finished
      cases finished
    · rintro ⟨few, _⟩
      simp at few
  case h_2 many =>
    have few : met.length ≤ 1 := by
      cases met with
      | nil => simp
      | cons first rest =>
          cases rest with
          | nil => simp
          | cons second rest => exact absurd rfl (many first second rest)
    rw [and_iff_right few, eq_comm (a := arguments)]
    exact Iff.of_eq (Except.ok.injEq settled.arguments arguments)

/-- A value that was met is judged before anything else. -/
theorem takeAll_eq_ok_iff_settle {words : List String} {p : Parameter} {text : String}
    (waits : progress.waiting = some (p, some text)) :
    progress.takeAll words = .ok arguments ↔
      ∃ settled, progress.settle = .ok settled ∧ settled.takeAll words = .ok arguments := by
  have finished : progress.finish = .ok arguments ↔
      ∃ settled, progress.settle = .ok settled ∧ settled.finish = .ok arguments := by
    simp only [finish_eq_ok_iff, settle_settle]
  cases words with
  | nil => simpa only [takeAll, mapError_eq_ok_iff] using finished
  | cons word rest =>
      unfold takeAll
      split
      case isTrue =>
        cases rest with
        | nil => simpa only [mapError_eq_ok_iff] using finished
        | cons extra more => simp
      case isFalse =>
        cases cut : Piece.ofArgument? word with
        | none =>
            rw [waits]
            refine ⟨nofun, ?_⟩
            rintro ⟨settled, judged, taken⟩
            rw [waiting_of_settle judged] at taken
            cases taken
        | some pieces =>
            have filled := Piece.ne_nil_of_ofArgument? cut
            simp only [bind_eq_ok_iff]
            constructor
            · rintro ⟨next, taken, later⟩
              obtain ⟨settled, judged, taken⟩ := (foldlM_take_eq_ok_iff filled).mp taken
              exact ⟨settled, judged, next, taken, later⟩
            · rintro ⟨settled, judged, next, taken, later⟩
              exact ⟨next, (foldlM_take_eq_ok_iff filled).mpr ⟨settled, judged, taken⟩, later⟩

theorem takeGiven_singleton {g : Given} :
    progress.takeGiven [g] = .ok next ↔ progress.take g.piece = .ok next := by
  rw [takeGiven, List.map_singleton, List.foldlM_cons, bind_eq_ok_iff]
  constructor
  · rintro ⟨_, taken, ⟨⟩⟩
    exact taken
  · intro taken
    exact ⟨next, taken, rfl⟩

theorem takeGiven_parameter {p : Parameter} {text : String} (ready : progress.waiting = none) :
    progress.takeGiven [.parameter p text] = .ok next ↔ progress.assign p text = .ok next := by
  rw [takeGiven_singleton, Given.piece, take_parameter_eq_ok_iff, settle_of_ready ready]
  simp only [Except.ok.injEq, exists_eq_left']

theorem finish_awaiting {awaited : Option Parameter} (ready : progress.waiting = none) :
    (progress.awaiting awaited).finish = .ok arguments ↔
      awaited = none ∧ progress.finish = .ok arguments := by
  cases awaited with
  | none => rw [awaiting_none ready, and_iff_right rfl]
  | some p =>
      have missing : (progress.awaiting (some p)).settle = .error (.missing p) := rfl
      rw [finish_eq_ok_iff, missing]
      simp

section

variable {word : String} {rest : List String} {awaited : Option Parameter}

theorem takeAll_dashes (ready : progress.waiting = none) :
    (progress.awaiting awaited).takeAll ("--" :: rest) = .ok arguments ↔
      rest = [] ∧ awaited = none ∧ progress.finish = .ok arguments := by
  rw [takeAll.eq_def]
  dsimp only
  rw [if_pos rfl]
  cases rest with
  | nil =>
      dsimp only
      rw [mapError_eq_ok_iff, finish_awaiting ready, and_iff_right rfl]
  | cons extra more => simp

/-- A word without a dash is the value that is awaited. -/
theorem takeAll_bare (ready : progress.waiting = none) (bare : Bare word) :
    (progress.awaiting awaited).takeAll (word :: rest) = .ok arguments ↔
      ∃ p, awaited = some p ∧ ∃ middle, progress.takeGiven [.parameter p word] = .ok middle ∧
        (middle.awaiting none).takeAll rest = .ok arguments := by
  have other : word ≠ "--" := by
    rintro rfl
    cases bare rfl
  rw [takeAll.eq_def]
  dsimp only
  rw [if_neg other, Piece.ofArgument?_eq_none_iff.mpr bare]
  cases awaited with
  | none => simp [awaiting]
  | some p =>
      have judged : ({ progress with waiting := some (p, some word) } : Progress).settle =
          progress.assign p word := congrArg (·.assign p word) (awaiting_none ready)
      simp only [Option.some.injEq, exists_eq_left', takeGiven_parameter ready]
      change ({ progress with waiting := some (p, some word) } : Progress).takeAll rest =
        .ok arguments ↔ _
      rw [takeAll_eq_ok_iff_settle rfl, judged]
      refine exists_congr fun settled => and_congr_right fun assigned => ?_
      rw [awaiting_none (waiting_of_settle (judged.trans assigned))]

/-- A word with a dash gives what it spells, before the words that follow. -/
theorem takeAll_dashed (ready : progress.waiting = none) (other : word ≠ "--")
    (dash : ¬Bare word) :
    (progress.awaiting awaited).takeAll (word :: rest) = .ok arguments ↔
      awaited = none ∧ ∃ given later, Dashed word.toList given later ∧
        ∃ middle, progress.takeGiven given = .ok middle ∧
          (middle.awaiting later).takeAll rest = .ok arguments := by
  obtain ⟨pieces, cut⟩ := Option.ne_none_iff_exists'.mp (mt Piece.ofArgument?_eq_none_iff.mp dash)
  rw [takeAll.eq_def]
  dsimp only
  rw [if_neg other, cut]
  dsimp only
  rw [bind_eq_ok_iff]
  constructor
  · rintro ⟨first, taken, read⟩
    cases awaited with
    | some p =>
        have filled := Piece.ne_nil_of_ofArgument? cut
        obtain ⟨settled, judged, _⟩ := (foldlM_take_eq_ok_iff filled).mp taken
        cases judged
    | none =>
        rw [awaiting_none ready] at taken
        have understood := not_refused_of_foldlM taken
        rcases Piece.dashed_or_refused cut with ⟨given, later, here⟩ | ⟨piece, member, refused⟩
        · rw [Piece.ofArgument?_of_dashed here] at cut
          cases cut
          obtain ⟨middle, given', rfl⟩ := (foldlM_spelling ready).mp taken
          exact ⟨rfl, given, later, here, middle, given', read⟩
        · exact absurd refused (understood piece member)
  · rintro ⟨rfl, given, later, here, middle, taken, read⟩
    rw [Piece.ofArgument?_of_dashed here] at cut
    cases cut
    rw [awaiting_none ready]
    exact ⟨_, (foldlM_spelling ready).mpr ⟨middle, taken, rfl⟩, read⟩

end

/-- What is read is what the words give. -/
theorem takeAll_eq_ok_iff {words : List String} {awaited : Option Parameter}
    (ready : progress.waiting = none) :
    (progress.awaiting awaited).takeAll words = .ok arguments ↔
      ∃ given, Spelt awaited words given ∧ ∃ next, progress.takeGiven given = .ok next ∧
        next.finish = .ok arguments := by
  induction words generalizing progress awaited with
  | nil =>
      rw [takeAll, mapError_eq_ok_iff, finish_awaiting ready]
      constructor
      · rintro ⟨rfl, finished⟩
        exact ⟨[], .none, progress, rfl, finished⟩
      · rintro ⟨_, ⟨⟩, next, taken, finished⟩
        cases taken
        exact ⟨rfl, finished⟩
  | cons word rest ih =>
      by_cases dashes : word = "--"
      · subst dashes
        rw [takeAll_dashes ready]
        constructor
        · rintro ⟨rfl, rfl, finished⟩
          exact ⟨[], .ended, progress, rfl, finished⟩
        · rintro ⟨given, spelt, next, taken, finished⟩
          obtain ⟨rfl, rfl, rfl⟩ := spelt_dashes spelt
          cases taken
          exact ⟨rfl, rfl, finished⟩
      by_cases bare : Bare word
      · rw [takeAll_bare ready bare]
        constructor
        · rintro ⟨p, rfl, middle, taken, read⟩
          obtain ⟨more, spelt, next, taken', finished⟩ :=
            (ih (ready_of_takeGiven ready taken)).mp read
          exact ⟨_, .value bare spelt, next, takeGiven_append.mpr ⟨middle, taken, taken'⟩, finished⟩
        · rintro ⟨_, spelt, next, taken, finished⟩
          cases spelt with
          | ended => exact absurd rfl dashes
          | dashed here _ => exact absurd bare (Piece.not_bare_of_dashed here)
          | @value p _ _ more _ spelt =>
              have taken : progress.takeGiven ([.parameter p word] ++ more) = .ok next := taken
              obtain ⟨middle, taken, taken'⟩ := takeGiven_append.mp taken
              exact ⟨_, rfl, middle, taken,
                (ih (ready_of_takeGiven ready taken)).mpr ⟨_, spelt, next, taken', finished⟩⟩
      · rw [takeAll_dashed ready dashes bare]
        constructor
        · rintro ⟨rfl, given, later, here, middle, taken, read⟩
          obtain ⟨more, spelt, next, taken', finished⟩ :=
            (ih (ready_of_takeGiven ready taken)).mp read
          exact ⟨_, .dashed here spelt, next,
            takeGiven_append.mpr ⟨middle, taken, taken'⟩, finished⟩
        · rintro ⟨_, spelt, next, taken, finished⟩
          cases spelt with
          | ended => exact absurd rfl dashes
          | value bare' _ => exact absurd bare' bare
          | dashed here spelt =>
              obtain ⟨middle, taken, taken'⟩ := takeGiven_append.mp taken
              exact ⟨rfl, _, _, here, middle, taken,
                (ih (ready_of_takeGiven ready taken)).mpr ⟨_, spelt, next, taken', finished⟩⟩

end Progress

end Frond.Cli
