import Frond.Proofs.Expansion.Composition

/-!
Texts that do not shrink. Where no replacement is empty and no noise is anywhere, a text has one
character for each of its symbols and the next generation has at least as many; it has more as soon as
one symbol of the text has a longer replacement.
-/

namespace Frond

/-- A text has its symbols, and besides them its noise. -/
theorem length_eq_symbols_add_noise (text : String) :
    text.length = (symbols text).length + noise text := by
  rw [← String.length_toList, symbols, List.length_filterMap_eq_countP, noise,
    List.length_eq_countP_add_countP fun c => (Symbol.ofChar? c).isSome, Nat.add_left_cancel_iff]
  refine List.countP_congr ?_
  intro c _
  simp

theorem noise_append (left right : String) : noise (left ++ right) = noise left + noise right := by
  rw [noise, String.toList_append, List.countP_append]
  rfl

/-- Every symbol is written in one byte. -/
theorem utf8ByteSize_eq_length {text : String} (noiseless : noise text = 0) :
    text.utf8ByteSize = text.length := by
  rw [noise, List.countP_eq_zero] at noiseless
  rw [← String.ofList_toList (s := text), String.utf8ByteSize_ofList, String.length_ofList]
  generalize text.toList = chars at noiseless
  induction chars with
  | nil => rfl
  | cons c rest ih =>
      have read : Symbol.ofChar? c ≠ none :=
        mt Option.isNone_iff_eq_none.mpr (noiseless c List.mem_cons_self)
      obtain ⟨symbol, known⟩ := Option.ne_none_iff_exists'.mp read
      have narrow : c.utf8Size = 1 := by
        rw [← Symbol.toChar_of_ofChar?_eq_some known]
        cases symbol <;> rfl
      rw [String.utf8Len_cons, narrow, List.length_cons,
        ih fun other member => noiseless other (List.mem_cons_of_mem c member)]

theorem length_le_sum_map {lengths : Symbol → Nat} (positive : ∀ symbol, 1 ≤ lengths symbol)
    (word : List Symbol) : word.length ≤ (word.map lengths).sum := by
  have each : ∀ length ∈ word.map lengths, 1 ≤ length := by
    intro length member
    obtain ⟨symbol, _, rfl⟩ := List.mem_map.mp member
    exact positive symbol
  have bound := List.length_le_sum_of_one_le (word.map lengths) each
  rwa [List.length_map] at bound

theorem length_eq_sum_map_iff {lengths : Symbol → Nat} (positive : ∀ symbol, 1 ≤ lengths symbol)
    (word : List Symbol) :
    word.length = (word.map lengths).sum ↔ ∀ symbol ∈ word, lengths symbol = 1 := by
  induction word with
  | nil => simp
  | cons symbol rest ih =>
      have first := positive symbol
      have others := length_le_sum_map positive rest
      rw [List.length_cons, List.map_cons, List.sum_cons, List.forall_mem_cons, ← ih]
      omega

namespace Rules

/-- Rules without empty replacements and without noise. -/
structure Proper (rules : Rules) : Prop where
  nonempty : ∀ symbol, rules.replacement symbol ≠ ""
  noiseless : ∀ symbol, noise (rules.replacement symbol) = 0

namespace Proper

variable {rules : Rules} (proper : rules.Proper) {text next : String}

include proper

theorem one_le_length (symbol : Symbol) : 1 ≤ (rules.replacement symbol).length :=
  Nat.one_le_iff_ne_zero.mpr (String.length_eq_zero_iff.not.mpr (proper.nonempty symbol))

theorem noise_replaceAll (word : List Symbol) : noise (rules.replaceAll word) = 0 := by
  induction word with
  | nil => rfl
  | cons symbol rest ih => rw [replaceAll_cons, noise_append, ih, proper.noiseless]

theorem noise_generations {count : Nat} {seed : String} (noiseless : noise seed = 0)
    (grown : rules.generations count seed = .ok text) : noise text = 0 := by
  cases count with
  | zero =>
      cases grown
      exact noiseless
  | succ count =>
      obtain ⟨before, _, once⟩ := generations_succ_last grown
      rw [eq_replaceAll_of_generation once]
      exact proper.noise_replaceAll (symbols before)

/-- A grown text and the text before it, which are both without noise. -/
theorem exists_before {count : Nat} {seed : String} (noiseless : noise seed = 0)
    (grown : rules.generations (count + 1) seed = .ok next) :
    ∃ text, rules.generations count seed = .ok text ∧ rules.generation text = .ok next ∧
      noise text = 0 ∧ noise next = 0 := by
  obtain ⟨text, earlier, once⟩ := generations_succ_last grown
  exact ⟨text, earlier, once, proper.noise_generations noiseless earlier,
    proper.noise_generations noiseless grown⟩

/-- The length of a generation, symbol by symbol. -/
theorem length_generation (noiseless : noise text = 0) (grown : rules.generation text = .ok next) :
    text.length ≤ next.length ∧
      (text.length = next.length ↔
        ∀ symbol ∈ symbols text, (rules.replacement symbol).length = 1) := by
  have before : text.length = (symbols text).length := by
    rw [length_eq_symbols_add_noise, noiseless, Nat.add_zero]
  have after : next.length =
      ((symbols text).map fun symbol => (rules.replacement symbol).length).sum := by
    rw [eq_replaceAll_of_generation grown, replaceAll, String.length_join, List.map_map]
    rfl
  rw [before, after]
  exact ⟨length_le_sum_map proper.one_le_length _, length_eq_sum_map_iff proper.one_le_length _⟩

end Proper

/-! ### Symbols that stay -/

variable {rules : Rules} {symbol : Symbol}

/-- A symbol that stands in its own replacement never disappears. -/
theorem mem_symbols_generations (kept : symbol ∈ rules.image symbol) {count : Nat}
    {seed text : String} (present : symbol ∈ symbols seed)
    (grown : rules.generations count seed = .ok text) : symbol ∈ symbols text := by
  induction count generalizing seed with
  | zero =>
      cases grown
      exact present
  | succ count ih =>
      obtain ⟨next, once, further⟩ := generations_succ grown
      refine ih ?_ further
      rw [symbols_generation once]
      exact List.mem_flatMap.mpr ⟨symbol, present, kept⟩

/-- Growth is strict while a symbol with a longer replacement is present. -/
theorem Proper.length_lt_generation (proper : rules.Proper) {text next : String}
    (noiseless : noise text = 0) (grown : rules.generation text = .ok next)
    (present : symbol ∈ symbols text) (longer : 1 < (rules.replacement symbol).length) :
    text.length < next.length := by
  obtain ⟨below, equal⟩ := proper.length_generation noiseless grown
  refine Nat.lt_of_le_of_ne below ?_
  intro same
  exact absurd (equal.mp same symbol present) (Nat.ne_of_gt longer)

end Rules

end Frond
