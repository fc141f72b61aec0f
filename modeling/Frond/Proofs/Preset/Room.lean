import Mathlib.Tactic.Ring
import Frond.Preset.Basic
import Frond.Proofs.Expansion.Deletion
import Frond.Proofs.Expansion.Words

/-!
Room for growth. A generation is no longer than its longest replacement times the number of symbols
before it, so growth succeeds while such a product can be counted. Every preset is far below that
at every depth it permits.
-/

namespace Frond

namespace Rules

/-- No replacement has more bytes or symbols than this. -/
structure Within (rules : Rules) (width : Nat) : Prop where
  size : ∀ symbol, (rules.replacement symbol).utf8ByteSize ≤ width
  word : ∀ symbol, (rules.image symbol).length ≤ width

variable {rules : Rules} {width : Nat}

theorem foldlM_addSize?_of_fits (within : rules.Within width) {total : Nat} {word : List Symbol}
    (fits : total + word.length * width < sizeLimit) :
    ∃ size, word.foldlM
      (fun total symbol => addSize? total (rules.replacement symbol).utf8ByteSize) total =
        some size := by
  induction word generalizing total with
  | nil => exact ⟨total, rfl⟩
  | cons symbol rest ih =>
      have step := within.size symbol
      rw [List.length_cons, Nat.add_one_mul] at fits
      have added := addSize?_eq_some_iff.mpr
        ⟨(by omega : total + (rules.replacement symbol).utf8ByteSize < sizeLimit), rfl⟩
      rw [List.foldlM_cons, added]
      exact ih (by omega)

theorem length_rewrite_le (within : rules.Within width) (word : List Symbol) :
    (rules.rewrite word).length ≤ word.length * width := by
  induction word with
  | nil => exact Nat.zero_le _
  | cons symbol rest ih =>
      have step := within.word symbol
      rw [rewrite_cons, List.length_append, List.length_cons, Nat.add_one_mul]
      omega

theorem generations_of_fits (within : rules.Within width) (positive : 0 < width) {count : Nat}
    {text : String} (fits : (symbols text).length * width ^ count < sizeLimit) :
    ∃ last, rules.generations count text = .ok last := by
  induction count generalizing text with
  | zero => exact ⟨text, rfl⟩
  | succ count ih =>
      have first : (symbols text).length * width < sizeLimit := by
        calc (symbols text).length * width
            = (symbols text).length * width ^ 1 := by rw [Nat.pow_one]
          _ ≤ (symbols text).length * width ^ (count + 1) :=
              Nat.mul_le_mul_left _ (Nat.pow_le_pow_right positive (by omega))
          _ < sizeLimit := fits
      obtain ⟨size, counted⟩ := foldlM_addSize?_of_fits within
        (by omega : 0 + (symbols text).length * width < sizeLimit)
      have grown : rules.generation text = .ok (rules.replaceAll (symbols text)) := by
        rw [generation, size?, counted]
      have later : (symbols (rules.replaceAll (symbols text))).length * width ^ count <
          sizeLimit := by
        calc (symbols (rules.replaceAll (symbols text))).length * width ^ count
            ≤ (symbols text).length * width * width ^ count := by
              rw [symbols_replaceAll]
              exact Nat.mul_le_mul_right _ (length_rewrite_le within _)
          _ = (symbols text).length * width ^ (count + 1) := by ring
          _ < sizeLimit := fits
      rw [generations, grown]
      exact ih later

end Rules

namespace Preset

/-- The most bytes and symbols in a replacement. -/
def width : Preset → Nat
  | sierpinski | dragon => 5
  | plant1 => 18
  | plant2 => 13
  | islands => 35
  | kochSnowflake => 8
  | quadraticKoch | gosper => 15

theorem rules_within (preset : Preset) : preset.grammar.rules.Within preset.width := by
  constructor
  · intro symbol
    cases preset <;> cases symbol <;> decide
  · intro symbol
    cases preset <;> cases symbol <;> decide

/-- At every depth that is permitted there is room for the text of a preset. -/
theorem expands (preset : Preset) {depth : UInt32} (permitted : depth ≤ preset.grammar.limit) :
    ∃ text, Grammar.expand { preset.grammar with iterations := depth } = .ok text := by
  apply Rules.generations_of_fits (rules_within preset)
  · cases preset <;> decide
  · have deepest : depth.toNat ≤ preset.grammar.limit.toNat := UInt32.le_iff_toNat_le.mp permitted
    calc (symbols preset.grammar.seed).length * preset.width ^ depth.toNat
        ≤ (symbols preset.grammar.seed).length * preset.width ^ preset.grammar.limit.toNat :=
          Nat.mul_le_mul_left _ (Nat.pow_le_pow_right (by cases preset <;> decide) deepest)
      _ < sizeLimit := by cases preset <;> decide

end Preset

end Frond
