import Frond.Preset.Basic
import Frond.Proofs.Expansion.Growth

/-!
The presets never stop growing. Each has a symbol in its seed that comes back in its own replacement
with others beside it, so that every generation is longer than the one before, whatever depth is
permitted.
-/

namespace Frond

namespace Preset

/-- A symbol of the seed that its own replacement repeats among others. -/
def bud : Preset → Symbol
  | sierpinski | gosper => .a
  | dragon | plant1 => .x
  | plant2 | islands | kochSnowflake | quadraticKoch => .f

theorem bud_mem_seed (preset : Preset) : preset.bud ∈ symbols preset.grammar.seed := by
  cases preset <;> decide

theorem bud_mem_image (preset : Preset) :
    preset.bud ∈ preset.grammar.rules.image preset.bud := by
  cases preset <;> decide

theorem one_lt_length_bud (preset : Preset) :
    1 < (preset.grammar.rules.replacement preset.bud).length := by
  cases preset <;> decide

theorem proper (preset : Preset) : preset.grammar.rules.Proper := by
  constructor
  · intro symbol
    cases preset <;> cases symbol <;> decide
  · intro symbol
    cases preset <;> cases symbol <;> decide

theorem noise_seed (preset : Preset) : noise preset.grammar.seed = 0 := by
  cases preset <;> decide

end Preset

/-- Rules without empty replacements and without noise never make a text without noise shorter, and
keep its length only if each symbol of it has a replacement of one character; a character is a byte
there. The presets have such rules, and grow in every generation. -/
theorem generations_never_shrink :
    (∀ (rules : Rules) (seed : String) (count : Nat) (next : String),
      rules.Proper → noise seed = 0 → rules.generations (count + 1) seed = .ok next →
        ∃ text, rules.generations count seed = .ok text ∧
          text.utf8ByteSize = text.length ∧ next.utf8ByteSize = next.length ∧
          text.length ≤ next.length ∧
          (text.length = next.length ↔
            ∀ symbol ∈ symbols text, (rules.replacement symbol).length = 1)) ∧
    ∀ (preset : Preset) (count : Nat) (next : String),
      preset.grammar.rules.generations (count + 1) preset.grammar.seed = .ok next →
        ∃ text, preset.grammar.rules.generations count preset.grammar.seed = .ok text ∧
          text.utf8ByteSize = text.length ∧ next.utf8ByteSize = next.length ∧
          text.length < next.length := by
  constructor
  · intro rules seed count next proper noiseless grown
    obtain ⟨text, earlier, once, before, after⟩ := proper.exists_before noiseless grown
    exact ⟨text, earlier, utf8ByteSize_eq_length before, utf8ByteSize_eq_length after,
      proper.length_generation before once⟩
  · intro preset count next grown
    obtain ⟨text, earlier, once, before, after⟩ :=
      preset.proper.exists_before preset.noise_seed grown
    have present := Rules.mem_symbols_generations preset.bud_mem_image preset.bud_mem_seed earlier
    exact ⟨text, earlier, utf8ByteSize_eq_length before, utf8ByteSize_eq_length after,
      preset.proper.length_lt_generation before once present preset.one_lt_length_bud⟩

/-- Rules that lengthen their text once and keep its length from then on, and a preset. -/
theorem turned_line_never_shrinks :
    let rules := (Rules.identity.set .f "A+").set .plus "-"
    (rules.Proper ∧ noise "F" = 0 ∧ rules.generations 2 "F" = .ok "A-" ∧
      ∃ text, rules.generations 1 "F" = .ok text ∧
        text.utf8ByteSize = text.length ∧ "A-".utf8ByteSize = "A-".length ∧
        text.length ≤ "A-".length ∧
        (text.length = "A-".length ↔
          ∀ symbol ∈ symbols text, (rules.replacement symbol).length = 1)) ∧
      Preset.dragon.grammar.rules.generations 1 "FX" = .ok "FX+YF+" ∧
      ∃ text, Preset.dragon.grammar.rules.generations 0 "FX" = .ok text ∧
        text.utf8ByteSize = text.length ∧ "FX+YF+".utf8ByteSize = "FX+YF+".length ∧
        text.length < "FX+YF+".length := by
  intro rules
  have proper : rules.Proper := by
    constructor
    · intro symbol
      cases symbol <;> decide
    · intro symbol
      cases symbol <;> decide
  have noiseless : noise "F" = 0 := by decide
  have grown : rules.generations 2 "F" = .ok "A-" := by cbv
  have folded : Preset.dragon.grammar.rules.generations 1 "FX" = .ok "FX+YF+" := by rfl
  obtain ⟨general, presets⟩ := generations_never_shrink
  exact ⟨⟨proper, noiseless, grown, general rules "F" 1 "A-" proper noiseless grown⟩, folded,
    presets .dragon 0 "FX+YF+" folded⟩

end Frond
