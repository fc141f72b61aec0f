import Frond.Proofs.Expansion.Composition

/-!
Noise from one generation to the next. A generation passes over the noise of the text before it and
writes down that of its own replacements, so what noise there is has always been made last. Without the
noise of seed and rules growth comes to the same texts, less their noise.
-/

namespace Frond

theorem deletes_filter (kind : Char → Bool) (chars : List Char) :
    Deletes kind chars (chars.filter fun c => !kind c) := by
  induction chars with
  | nil => exact .nil
  | cons c rest ih =>
      cases inKind : kind c with
      | true =>
          rw [List.filter_cons_of_neg (by simp [inKind])]
          exact .drop inKind ih
      | false =>
          rw [List.filter_cons_of_pos (by simp [inKind])]
          exact .keep c ih

/-- A text less all of its noise. -/
def stripped (text : String) : String := String.ofList (text.toList.filter fun c => !isNoise c)

theorem quieter_stripped (text : String) : Quieter text (stripped text) := by
  rw [Quieter, stripped, String.toList_ofList]
  exact deletes_filter isNoise text.toList

theorem stripped_append (left right : String) :
    stripped (left ++ right) = stripped left ++ stripped right := by
  rw [stripped, String.toList_append, List.filter_append, String.ofList_append]
  rfl

theorem stripped_stripped (text : String) : stripped (stripped text) = stripped text := by
  rw [stripped, stripped, String.toList_ofList, List.filter_filter]
  simp only [Bool.and_self]

namespace Rules

/-- The same rules less all noise of their replacements. -/
def stripped (rules : Rules) : Rules := ⟨fun symbol => Frond.stripped (rules.replacement symbol)⟩

variable {rules : Rules}

theorem quieter_stripped (rules : Rules) : rules.Quieter rules.stripped :=
  fun symbol => Frond.quieter_stripped (rules.replacement symbol)

theorem replaceAll_stripped (rules : Rules) (word : List Symbol) :
    rules.stripped.replaceAll word = Frond.stripped (rules.replaceAll word) := by
  induction word with
  | nil => rfl
  | cons symbol rest ih => rw [replaceAll_cons, replaceAll_cons, stripped_append, ih, stripped]

/-- A generation does not see the noise of the text before it. -/
theorem generation_eq_of_quieter {text less : String} (quieter : Frond.Quieter text less) :
    rules.generation less = rules.generation text := by
  rw [generation, generation, size?, size?, quieter.symbols_eq]

theorem generation_stripped {text next : String} (grown : rules.generation text = .ok next) :
    rules.stripped.generation (Frond.stripped text) = .ok (Frond.stripped next) := by
  obtain ⟨last, fewer, _⟩ := rules.quieter_stripped.generation (Frond.quieter_stripped text) grown
  rw [fewer, eq_replaceAll_of_generation fewer, eq_replaceAll_of_generation grown,
    replaceAll_stripped, (Frond.quieter_stripped text).symbols_eq]

theorem generations_stripped {count : Nat} {seed text : String}
    (grown : rules.generations count seed = .ok text) :
    rules.stripped.generations count (Frond.stripped seed) = .ok (Frond.stripped text) := by
  induction count generalizing seed with
  | zero =>
      cases grown
      rfl
  | succ count ih =>
      obtain ⟨next, once, further⟩ := generations_succ grown
      rw [generations, generation_stripped once]
      exact ih further

/-- The generation that is written last brings its noise along, and no other noise is there. -/
theorem generation_of_generations_stripped {count : Nat} {seed text : String}
    (grown : rules.generations (count + 1) seed = .ok text) :
    ∃ before, rules.stripped.generations count (Frond.stripped seed) = .ok before ∧
      rules.generation before = .ok text := by
  obtain ⟨before, earlier, once⟩ := generations_succ_last grown
  refine ⟨Frond.stripped before, generations_stripped earlier, ?_⟩
  rw [generation_eq_of_quieter (Frond.quieter_stripped before)]
  exact once

/-! ### Symbols that stand for themselves -/

theorem unchecked_identity (text : String) : identity.unchecked text = Frond.stripped text := by
  rw [unchecked, symbols, Frond.stripped]
  induction text.toList with
  | nil => rfl
  | cons c rest ih =>
      cases known : Symbol.ofChar? c with
      | none =>
          rw [List.filterMap_cons_none known, List.filter_cons_of_neg (by simp [isNoise, known]), ih]
      | some symbol =>
          rw [List.filterMap_cons_some known, List.filter_cons_of_pos (by simp [isNoise, known]),
            replaceAll_cons, ih, String.ofList_cons, ← Symbol.toChar_of_ofChar?_eq_some known]
          rfl

theorem generation_identity (text : String) :
    identity.generation text =
      if (Frond.stripped text).utf8ByteSize < sizeLimit then .ok (Frond.stripped text)
      else .error .overflow := by
  rw [generation_eq, unchecked_identity]

theorem generations_identity_of_stripped {text : String} (count : Nat)
    (noiseless : Frond.stripped text = text) (fits : text.utf8ByteSize < sizeLimit) :
    identity.generations count text = .ok text := by
  induction count with
  | zero => rfl
  | succ count ih =>
      rw [generations, generation_identity, noiseless, if_pos fits]
      exact ih

theorem generations_identity (count : Nat) (seed : String) :
    identity.generations (count + 1) seed =
      if (Frond.stripped seed).utf8ByteSize < sizeLimit then .ok (Frond.stripped seed)
      else .error .overflow := by
  rw [generations, generation_identity]
  by_cases fits : (Frond.stripped seed).utf8ByteSize < sizeLimit
  · rw [if_pos fits]
    exact generations_identity_of_stripped count (stripped_stripped seed) fits
  · rw [if_neg fits]
    rfl

end Rules

/-- Noise lives in the generation that made it and no longer. A grown text is the generation by the
rules themselves after one generation less by the rules without noise, from the seed without noise; less
its noise it is what those grow all along. Only the seed keeps its own noise, and where symbols stand
for themselves that is lost for good with the first generation. -/
theorem noise_of_last_generation :
    (∀ (rules : Rules) (count : Nat) (seed text : String),
      rules.generations (count + 1) seed = .ok text →
        (∃ before, rules.stripped.generations count (stripped seed) = .ok before ∧
          rules.generation before = .ok text) ∧
        rules.stripped.generations (count + 1) (stripped seed) = .ok (stripped text)) ∧
    (∀ (rules : Rules) (seed : String), rules.generations 0 seed = .ok seed) ∧
    ∀ (count : Nat) (seed : String), Rules.identity.generations (count + 1) seed =
      if (stripped seed).utf8ByteSize < 2 ^ 64 then .ok (stripped seed) else .error .overflow := by
  refine ⟨?_, fun _ _ => rfl, Rules.generations_identity⟩
  intro rules count seed text grown
  exact ⟨Rules.generation_of_generations_stripped grown, Rules.generations_stripped grown⟩

/-- A rule that makes noise of several bytes anew in every generation, on a seed with noise. -/
theorem noise_of_second_generation :
    let rules := Rules.identity.set .f "Fé+?F"
    rules.generations 2 "ñF" = .ok "Fé+?F+Fé+?F" ∧
      (∃ before, rules.stripped.generations 1 (stripped "ñF") = .ok before ∧
        rules.generation before = .ok "Fé+?F+Fé+?F") ∧
      rules.stripped.generations 2 (stripped "ñF") = .ok (stripped "Fé+?F+Fé+?F") := by
  intro rules
  have grown : rules.generations 2 "ñF" = .ok "Fé+?F+Fé+?F" := by cbv
  exact ⟨grown, noise_of_last_generation.1 rules 1 "ñF" _ grown⟩

end Frond
