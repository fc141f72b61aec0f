import Frond.Proofs.Cli.Reading

/-!
What a command line means. Each parameter has the value that its text spells, or none where it is
not given, and the flags that are raised are those that are given. A command line is understood just
if it means something.
-/

namespace Frond.Cli

/-- The arguments that are asked for by what is given. -/
structure Asks (given : List Given) (arguments : Arguments) : Prop where
  values : ∀ p text, Given.parameter p text ∈ given → arguments.Takes p (some text)
  absent : ∀ p, (∀ text, Given.parameter p text ∉ given) → arguments.Takes p none
  raised : ∀ f, arguments.Raised f ↔ Given.flag f ∈ given
  colourless : arguments.Colourless

/-- Nothing is given twice, nor an output together with a sequence. -/
structure Allowed (given : List Given) : Prop where
  once : (given.map Given.name).Nodup
  single : ∀ file directory, Given.parameter .output file ∈ given →
    Given.parameter .sequence directory ∉ given

/-- Words that are understood as arguments. -/
def Means (words : List String) (arguments : Arguments) : Prop :=
  ∃ given, Spelt none words given ∧ Allowed given ∧ Asks given arguments

theorem Asks.unique {given : List Given} {first second : Arguments} (left : Asks given first)
    (right : Asks given second) : first = second := by
  apply Arguments.eq_of_takes _ _ left.colourless right.colourless
  · intro p
    by_cases chosen : ∃ text, Given.parameter p text ∈ given
    · obtain ⟨text, member⟩ := chosen
      exact ⟨some text, left.values p text member, right.values p text member⟩
    · rw [not_exists] at chosen
      exact ⟨none, left.absent p chosen, right.absent p chosen⟩
  · intro f
    exact (left.raised f).trans (right.raised f).symm

namespace Progress

variable {progress next : Progress} {given : List Given}

/-- A command line was read as far as to know what was given. -/
structure Follows (progress : Progress) (given : List Given) : Prop where
  ready : progress.waiting = none
  names : progress.given = given.map Given.name
  once : (given.map Given.name).Nodup
  asks : Asks given progress.arguments

theorem follows_start : Follows {} [] := by
  refine ⟨rfl, rfl, List.nodup_nil, nofun, ?_, ?_, rfl, rfl⟩
  · intro p _
    cases p with
    | preset => rfl
    | _ => exact .none
  · intro f
    cases f <;> simp [Arguments.Raised]

theorem nodup_names_append {g : Given} (once : (given.map Given.name).Nodup)
    (fresh : g.name ∉ given.map Given.name) : ((given ++ [g]).map Given.name).Nodup := by
  rw [List.map_append, List.map_singleton]
  exact once.append (List.nodup_singleton _) (List.disjoint_singleton.mpr fresh)

theorem asks_flag {f : Flag} {arguments : Arguments} (known : f ≠ .help)
    (asks : Asks given arguments) : Asks (given ++ [.flag f]) (arguments.raise f) := by
  have parameter {p : Parameter} {text : String} :
      Given.parameter p text ∈ given ++ [.flag f] ↔ Given.parameter p text ∈ given := by simp
  refine ⟨?_, ?_, ?_, (Arguments.colourless_raise f).mpr asks.colourless⟩
  · intro p text member
    exact (Arguments.takes_raise f).mpr (asks.values p text (parameter.mp member))
  · intro p absent
    simp only [parameter] at absent
    exact (Arguments.takes_raise f).mpr (asks.absent p absent)
  · intro other
    rw [Arguments.raised_raise known, asks.raised, List.mem_append, List.mem_singleton,
      Given.flag.injEq, or_comm]

theorem asks_parameter {p : Parameter} {text : String} {arguments assigned : Arguments}
    (fresh : Name.parameter p ∉ given.map Given.name) (asks : Asks given arguments)
    (assigns : arguments.assign p text = .ok assigned) :
    Asks (given ++ [.parameter p text]) assigned := by
  have beside := Arguments.beside_of_assign assigns
  refine ⟨?_, ?_, ?_, beside.colourless.mpr asks.colourless⟩
  · intro other value member
    rcases List.mem_append.mp member with before | here
    · have apart : other ≠ p := by
        rintro rfl
        exact fresh (List.mem_map_of_mem before)
      exact (beside.takes other apart _).mpr (asks.values other value before)
    · cases List.mem_singleton.mp here
      exact Arguments.takes_of_assign assigns
  · intro other absent
    have apart : other ≠ p := by
      rintro rfl
      exact absent text (List.mem_append_right _ List.mem_cons_self)
    refine (beside.takes other apart _).mpr (asks.absent other fun value before => ?_)
    exact absent value (List.mem_append_left _ before)
  · intro f
    rw [beside.raised, asks.raised]
    simp

theorem Follows.step {g : Given} (follows : progress.Follows given)
    (taken : progress.takeGiven [g] = .ok next) : next.Follows (given ++ [g]) := by
  obtain ⟨ready, names, once, asks⟩ := follows
  cases g with
  | flag f =>
      obtain ⟨settled, judged, known, fresh, rfl⟩ :=
        take_flag_eq_ok_iff.mp (takeGiven_singleton.mp taken)
      rw [settle_of_ready ready] at judged
      cases judged
      rw [names] at fresh
      refine ⟨ready, ?_, nodup_names_append once fresh, asks_flag known asks⟩
      rw [names, List.map_append]
      rfl
  | parameter p text =>
      obtain ⟨fresh, assigned, assigns, rfl⟩ :=
        assign_eq_ok_iff.mp ((takeGiven_parameter ready).mp taken)
      rw [names] at fresh
      refine ⟨ready, ?_, nodup_names_append once fresh, asks_parameter fresh asks assigns⟩
      rw [names, List.map_append]
      rfl

theorem follows_of_takeGiven (taken : ({} : Progress).takeGiven given = .ok next) :
    next.Follows given := by
  induction given using List.reverseRecOn generalizing next with
  | nil =>
      cases taken
      exact follows_start
  | append_singleton before g ih =>
      obtain ⟨middle, first, last⟩ := takeGiven_append.mp taken
      exact (ih first).step last

/-- What is given once and can be taken is taken. -/
theorem exists_takeGiven {model : Arguments} (once : (given.map Given.name).Nodup)
    (values : ∀ p text, Given.parameter p text ∈ given → model.Takes p (some text))
    (helpless : Given.flag .help ∉ given) :
    ∃ next, ({} : Progress).takeGiven given = .ok next := by
  induction given using List.reverseRecOn with
  | nil => exact ⟨_, rfl⟩
  | append_singleton before g ih =>
      rw [List.map_append, List.nodup_append] at once
      obtain ⟨once, -, apart⟩ := once
      have fresh : g.name ∉ before.map Given.name := by
        intro member
        exact apart _ member _ (List.mem_singleton_self _) rfl
      obtain ⟨middle, taken⟩ := ih once
        (fun p text member => values p text (List.mem_append_left _ member))
        (fun member => helpless (List.mem_append_left _ member))
      obtain ⟨ready, names, -, -⟩ := follows_of_takeGiven taken
      suffices last : ∃ next, middle.takeGiven [g] = .ok next by
        obtain ⟨next, last⟩ := last
        exact ⟨next, takeGiven_append.mpr ⟨middle, taken, last⟩⟩
      rw [← names] at fresh
      cases g with
      | flag f =>
          have known : f ≠ .help := by
            rintro rfl
            exact helpless (List.mem_append_right _ List.mem_cons_self)
          exact ⟨_, takeGiven_singleton.mpr (take_flag_eq_ok_iff.mpr
            ⟨middle, settle_of_ready ready, known, fresh, rfl⟩)⟩
      | parameter p text =>
          have takes := values p text (List.mem_append_right _ List.mem_cons_self)
          obtain ⟨assigned, assigns⟩ := Arguments.exists_assign takes middle.arguments
          exact ⟨_, (takeGiven_parameter ready).mpr
            (assign_eq_ok_iff.mpr ⟨fresh, assigned, assigns, rfl⟩)⟩

theorem exclusive?_eq_some_iff {name : Name} {p : Parameter} :
    exclusive? name = some p ↔ name = .parameter p ∧ (p = .output ∨ p = .sequence) := by
  constructor
  · intro met
    unfold exclusive? at met
    split at met <;> cases met
    · exact ⟨rfl, .inl rfl⟩
    · exact ⟨rfl, .inr rfl⟩
  · rintro ⟨rfl, rfl | rfl⟩ <;> rfl

theorem length_exclusive_iff {names : List Name} (once : names.Nodup) :
    (names.filterMap exclusive?).length ≤ 1 ↔
      (.parameter .output ∈ names → .parameter .sequence ∉ names) := by
  have met {p : Parameter} : p ∈ names.filterMap exclusive? ↔
      .parameter p ∈ names ∧ (p = .output ∨ p = .sequence) := by
    simp only [List.mem_filterMap, exclusive?_eq_some_iff]
    constructor
    · rintro ⟨_, member, rfl, which⟩
      exact ⟨member, which⟩
    · rintro ⟨member, which⟩
      exact ⟨_, member, rfl, which⟩
  have distinct : (names.filterMap exclusive?).Nodup := by
    apply once.filterMap
    intro first second p left right
    rw [(exclusive?_eq_some_iff.mp left).1, (exclusive?_eq_some_iff.mp right).1]
  have output : .parameter .output ∈ names ↔ .output ∈ names.filterMap exclusive? := by simp [met]
  have sequence : .parameter .sequence ∈ names ↔ .sequence ∈ names.filterMap exclusive? := by
    simp [met]
  rw [output, sequence]
  have which (p : Parameter) (member : p ∈ names.filterMap exclusive?) :
      p = .output ∨ p = .sequence := (met.mp member).2
  generalize names.filterMap exclusive? = exclusive at distinct which
  constructor
  · intro few first second
    have both : [Parameter.output, .sequence] ⊆ exclusive := by simp [first, second]
    exact absurd ((List.Nodup.subperm (by decide) both).length_le.trans few) (by decide)
  · intro apart
    obtain ⟨p, only⟩ : ∃ p, exclusive ⊆ [p] := by
      by_cases first : .output ∈ exclusive
      · refine ⟨.output, fun p member => List.mem_singleton.mpr ?_⟩
        exact (which p member).resolve_right fun same => apart first (same ▸ member)
      · refine ⟨.sequence, fun p member => List.mem_singleton.mpr ?_⟩
        exact (which p member).resolve_left fun same => first (same ▸ member)
    exact (distinct.subperm only).length_le

end Progress

/-- A command line is understood just as what it means. -/
theorem Arguments.read_eq_ok_iff {words : List String} {arguments : Arguments} :
    read words = .ok arguments ↔ Means words arguments := by
  have ready : ({} : Progress).waiting = none := rfl
  have named {given : List Given} {p : Parameter} :
      Name.parameter p ∈ given.map Given.name ↔ ∃ text, Given.parameter p text ∈ given := by
    rw [List.mem_map]
    constructor
    · rintro ⟨g, member, named⟩
      cases g with
      | flag f => cases named
      | parameter q text =>
          cases named
          exact ⟨text, member⟩
    · rintro ⟨text, member⟩
      exact ⟨_, member, rfl⟩
  have single {given : List Given} (once : (given.map Given.name).Nodup) :
      ((given.map Given.name).filterMap Progress.exclusive?).length ≤ 1 ↔ Allowed given := by
    rw [Progress.length_exclusive_iff once, named, named]
    constructor
    · intro apart
      exact ⟨once, fun file directory output sequence => apart ⟨file, output⟩ ⟨directory, sequence⟩⟩
    · rintro ⟨-, apart⟩ ⟨file, output⟩ ⟨directory, sequence⟩
      exact apart file directory output sequence
  rw [read, ← Progress.awaiting_none ready, Progress.takeAll_eq_ok_iff ready]
  refine exists_congr fun given => and_congr_right fun _ => ?_
  constructor
  · rintro ⟨next, taken, finished⟩
    obtain ⟨ready, names, once, asks⟩ := Progress.follows_of_takeGiven taken
    obtain ⟨settled, judged, few, rfl⟩ := Progress.finish_eq_ok_iff.mp finished
    rw [Progress.settle_of_ready ready] at judged
    cases judged
    rw [names] at few
    exact ⟨(single once).mp few, asks⟩
  · rintro ⟨allowed, asks⟩
    have once := allowed.once
    obtain ⟨next, taken⟩ := Progress.exists_takeGiven once asks.values
      fun help => (asks.raised .help).mpr help
    obtain ⟨ready, names, -, asks'⟩ := Progress.follows_of_takeGiven taken
    refine ⟨next, taken, Progress.finish_eq_ok_iff.mpr
      ⟨next, Progress.settle_of_ready ready, ?_, asks.unique asks'⟩⟩
    rw [names]
    exact (single once).mpr allowed

end Frond.Cli
