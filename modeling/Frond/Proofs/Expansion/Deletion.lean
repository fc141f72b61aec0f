import Frond.Proofs.Expansion.Words

/-!
Texts with characters deleted. Noise that is deleted from the seed and the rules of a grammar is
made again in every generation and dropped by the next, so the two grown texts stay apart; but at
every generation the one is the other less some noise, and it is never longer.
-/

namespace Frond

/-- The second text is the first less some characters of a kind. -/
inductive Deletes (kind : Char → Bool) : List Char → List Char → Prop
  | nil : Deletes kind [] []
  | keep (c : Char) {text rest : List Char} (later : Deletes kind text rest) :
      Deletes kind (c :: text) (c :: rest)
  | drop {c : Char} {text rest : List Char} (inKind : kind c = true)
      (later : Deletes kind text rest) : Deletes kind (c :: text) rest

namespace Deletes

variable {kind : Char → Bool} {text rest : List Char}

theorem nil_iff : Deletes kind [] rest ↔ rest = [] := by
  constructor
  · rintro ⟨⟩
    rfl
  · rintro rfl
    exact .nil

theorem cons_iff {c : Char} :
    Deletes kind (c :: text) rest ↔
      (∃ later, rest = c :: later ∧ Deletes kind text later) ∨
        kind c = true ∧ Deletes kind text rest := by
  constructor
  · intro deleted
    cases deleted with
    | keep _ later => exact .inl ⟨_, rfl, later⟩
    | drop inKind later => exact .inr ⟨inKind, later⟩
  · rintro (⟨later, rfl, deleted⟩ | ⟨inKind, later⟩)
    · exact .keep c deleted
    · exact .drop inKind later

instance decidable (kind : Char → Bool) : ∀ text rest, Decidable (Deletes kind text rest)
  | [], _ => decidable_of_iff _ nil_iff.symm
  | c :: text, [] =>
    have := decidable kind text []
    decidable_of_iff (kind c = true ∧ Deletes kind text []) (by simp [cons_iff])
  | c :: text, d :: rest =>
    have := decidable kind text rest
    have := decidable kind text (d :: rest)
    decidable_of_iff
      ((d = c ∧ Deletes kind text rest) ∨ kind c = true ∧ Deletes kind text (d :: rest))
      (by simp [cons_iff, and_assoc])

theorem append {left less right fewer : List Char} (first : Deletes kind left less)
    (second : Deletes kind right fewer) : Deletes kind (left ++ right) (less ++ fewer) := by
  induction first with
  | nil => exact second
  | keep c _ ih => exact .keep c ih
  | drop inKind _ ih => exact .drop inKind ih

/-- A reader that passes over the characters of a kind cannot tell that some were deleted. -/
theorem filterMap_eq {β : Type} {read : Char → Option β} (deleted : Deletes kind text rest)
    (passed : ∀ c, kind c = true → read c = none) :
    rest.filterMap read = text.filterMap read := by
  induction deleted with
  | nil => rfl
  | keep c _ ih => simp only [List.filterMap_cons, ih]
  | drop inKind _ ih => rw [ih, List.filterMap_cons_none (passed _ inKind)]

theorem utf8ByteSize_le (deleted : Deletes kind text rest) :
    (String.ofList rest).utf8ByteSize ≤ (String.ofList text).utf8ByteSize := by
  induction deleted with
  | nil => exact Nat.le_refl _
  | keep c _ ih =>
      rw [String.ofList_cons, String.ofList_cons, String.utf8ByteSize_append,
        String.utf8ByteSize_append]
      omega
  | drop _ _ ih =>
      rw [String.ofList_cons, String.utf8ByteSize_append]
      omega

end Deletes

/-- Characters outside the alphabet. -/
def isNoise (c : Char) : Bool := (Symbol.ofChar? c).isNone

/-- The second text is the first less some noise. -/
def Quieter (text less : String) : Prop := Deletes isNoise text.toList less.toList

instance (text less : String) : Decidable (Quieter text less) :=
  inferInstanceAs (Decidable (Deletes isNoise text.toList less.toList))

namespace Quieter

variable {text less : String}

theorem symbols_eq (quieter : Quieter text less) : symbols less = symbols text :=
  Deletes.filterMap_eq quieter fun _ noise => Option.isNone_iff_eq_none.mp noise

theorem utf8ByteSize_le (quieter : Quieter text less) :
    less.utf8ByteSize ≤ text.utf8ByteSize := by
  have sizes := Deletes.utf8ByteSize_le quieter
  rwa [String.ofList_toList, String.ofList_toList] at sizes

end Quieter

theorem addSize?_eq_some_iff {total size sum : Nat} :
    addSize? total size = some sum ↔ total + size < sizeLimit ∧ total + size = sum := by
  simp [addSize?]

theorem foldlM_addSize?_le {large small : Symbol → Nat} (smaller : ∀ symbol, small symbol ≤ large symbol)
    {total less sum : Nat} (below : less ≤ total) {word : List Symbol}
    (counted : word.foldlM (fun total symbol => addSize? total (large symbol)) total = some sum) :
    ∃ fewer, word.foldlM (fun total symbol => addSize? total (small symbol)) less = some fewer := by
  induction word generalizing total less with
  | nil => exact ⟨less, rfl⟩
  | cons symbol rest ih =>
      rw [List.foldlM_cons, Option.bind_eq_bind, Option.bind_eq_some_iff] at counted
      obtain ⟨next, added, counted⟩ := counted
      obtain ⟨fits, rfl⟩ := addSize?_eq_some_iff.mp added
      have step := smaller symbol
      have first : addSize? less (small symbol) = some (less + small symbol) :=
        addSize?_eq_some_iff.mpr ⟨by omega, rfl⟩
      rw [List.foldlM_cons, first]
      exact ih (by omega) counted

namespace Rules

/-- The same rules less some noise in their replacements. -/
def Quieter (rules fewer : Rules) : Prop :=
  ∀ symbol, Frond.Quieter (rules.replacement symbol) (fewer.replacement symbol)

namespace Quieter

variable {rules fewer : Rules}

theorem replaceAll (quieter : rules.Quieter fewer) (word : List Symbol) :
    Frond.Quieter (rules.replaceAll word) (fewer.replaceAll word) := by
  induction word with
  | nil => exact .nil
  | cons symbol rest ih =>
      rw [Frond.Quieter, replaceAll_cons, replaceAll_cons, String.toList_append,
        String.toList_append]
      exact (quieter symbol).append ih

/-- One generation of both: the texts come to differ by other noise than before. -/
theorem generation (quieter : rules.Quieter fewer) {text less next : String}
    (hushed : Frond.Quieter text less) (grown : rules.generation text = .ok next) :
    ∃ last, fewer.generation less = .ok last ∧ Frond.Quieter next last := by
  have word := hushed.symbols_eq
  refine ⟨fewer.replaceAll (symbols text), ?_, ?_⟩
  · unfold Rules.generation at grown ⊢
    split at grown
    case h_1 => cases grown
    case h_2 size counted =>
      obtain ⟨small, fits⟩ := foldlM_addSize?_le
        (fun symbol => (quieter symbol).utf8ByteSize_le) (Nat.le_refl 0) counted
      simp only [size?, word, fits]
  · rw [eq_replaceAll_of_generation grown]
    exact quieter.replaceAll (symbols text)

theorem generations (quieter : rules.Quieter fewer) {count : Nat} {text less last : String}
    (hushed : Frond.Quieter text less) (grown : rules.generations count text = .ok last) :
    ∃ final, fewer.generations count less = .ok final ∧ Frond.Quieter last final := by
  induction count generalizing text less with
  | zero =>
      cases grown
      exact ⟨less, rfl, hushed⟩
  | succ count ih =>
      obtain ⟨next, first, rest⟩ := generations_succ grown
      obtain ⟨lessNext, lessFirst, nextHushed⟩ := quieter.generation hushed first
      obtain ⟨final, lessRest, finalHushed⟩ := ih nextHushed rest
      refine ⟨final, ?_, finalHushed⟩
      rw [Rules.generations, lessFirst]
      exact lessRest

end Quieter

end Rules

/-- The same grammar less some noise in its seed and in its replacements. -/
structure Grammar.Quieter (grammar fewer : Grammar) : Prop where
  others : fewer = { grammar with seed := fewer.seed, rules := fewer.rules }
  seed : Frond.Quieter grammar.seed fewer.seed
  rules : grammar.rules.Quieter fewer.rules

namespace Grammar.Quieter

variable {grammar fewer : Grammar}

theorem iterations (quieter : grammar.Quieter fewer) : fewer.iterations = grammar.iterations := by
  rw [quieter.others]

theorem expand (quieter : grammar.Quieter fewer) {text : String}
    (grown : grammar.expand = .ok text) :
    ∃ less, fewer.expand = .ok less ∧ Frond.Quieter text less := by
  rw [Grammar.expand, quieter.iterations]
  exact quieter.rules.generations quieter.seed grown

end Grammar.Quieter

end Frond
