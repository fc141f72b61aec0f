import Mathlib
import Frond.Preset.Basic
import Frond.Proofs.Expansion.Counts
import Frond.Proofs.Turtle.SegmentCount

/-!
How many segments each preset draws at a depth. The drawing symbols of a preset are weighed by
weights that its rules scale, so that their number is a sum of powers.
-/

namespace Frond

namespace Preset

/-- The number of segments that a preset draws at a depth. -/
def segmentCount : Preset → ℕ → ℕ
  | sierpinski, depth => 3 ^ depth
  | dragon, depth => 2 ^ depth
  | plant1, depth => 3 * (4 ^ depth - 2 ^ depth) / 2
  | plant2, depth => 5 ^ depth
  | islands, depth => 4 * 18 ^ depth
  | kochSnowflake, depth => 3 * 4 ^ depth
  | quadraticKoch, depth => 4 * 8 ^ depth
  | gosper, depth => 7 ^ depth

/-- Weights with the factors by which the rules of a preset scale them. Together they weigh a
drawing symbol with two and every other symbol with nothing. -/
def weighings : Preset → List ((Symbol → ℤ) × ℤ)
  | sierpinski => [(fun | .a | .b => 2 | _ => 0, 3), (fun | .f => 2 | _ => 0, 1)]
  | dragon =>
    [(fun | .a | .b | .f => 2 | .x | .y => -2 | _ => 0, 1), (fun | .x | .y => 2 | _ => 0, 2)]
  | plant1 =>
    [(fun | .f => 2 | .x => -3 | _ => 0, 2), (fun | .x => 3 | _ => 0, 4),
      (fun | .a | .b => 2 | _ => 0, 1)]
  | plant2 => [(fun | .f => 2 | _ => 0, 5), (fun | .a | .b => 2 | _ => 0, 1)]
  | islands => [(fun | .f => 2 | _ => 0, 18), (fun | .a | .b => 2 | _ => 0, 1)]
  | kochSnowflake => [(fun | .f => 2 | _ => 0, 4), (fun | .a | .b => 2 | _ => 0, 1)]
  | quadraticKoch => [(fun | .f => 2 | _ => 0, 8), (fun | .a | .b => 2 | _ => 0, 1)]
  | gosper => [(fun | .a | .b => 2 | _ => 0, 7), (fun | .f => 2 | _ => 0, 1)]

theorem weighings_scale (preset : Preset) :
    ∀ weighing ∈ preset.weighings, preset.grammar.rules.Scales weighing.1 weighing.2 := by
  cases preset <;> decide +kernel

theorem weighings_sum (preset : Preset) (symbol : Symbol) :
    (preset.weighings.map fun weighing => weighing.1 symbol).sum =
      if symbol.draws then 2 else 0 := by
  cases preset <;> cases symbol <;> rfl

theorem weighings_occurrences (preset : Preset) (word : List Symbol) :
    (preset.weighings.map fun weighing => weigh weighing.1 (occurrences word)).sum =
      2 * (word.countP Symbol.draws : ℤ) := by
  induction word with
  | nil => simp
  | cons first rest ih =>
      simp only [weigh_occurrences_cons, List.sum_map_add, weighings_sum, ih, List.countP_cons]
      split <;> push_cast <;> ring

/-- The powers that the drawing symbols of a preset are a sum of: each with its base, and with
what the seed weighs in front of it. -/
def powers (preset : Preset) : List (ℤ × ℤ) :=
  preset.weighings.map fun weighing =>
    (weighing.2, weigh weighing.1 (occurrences (symbols preset.grammar.seed)))

theorem powers_eq (preset : Preset) :
    preset.powers =
      match preset with
      | sierpinski => [(3, 2), (1, 0)]
      | dragon => [(1, 0), (2, 2)]
      | plant1 => [(2, -3), (4, 3), (1, 0)]
      | plant2 => [(5, 2), (1, 0)]
      | islands => [(18, 8), (1, 0)]
      | kochSnowflake => [(4, 6), (1, 0)]
      | quadraticKoch => [(8, 8), (1, 0)]
      | gosper => [(7, 2), (1, 0)] := by
  cases preset <;> decide +kernel

theorem two_dvd_plant_difference (depth : ℕ) : 2 ∣ 3 * (4 ^ depth - 2 ^ depth) := by
  cases depth with
  | zero => decide
  | succ depth =>
      rw [pow_succ, pow_succ]
      omega

theorem two_mul_plant_segmentCount (depth : ℕ) :
    2 * (plant1.segmentCount depth : ℤ) = 3 * (4 ^ depth - 2 ^ depth) := by
  have halved : 2 * plant1.segmentCount depth = 3 * (4 ^ depth - 2 ^ depth) :=
    Nat.mul_div_cancel' (two_dvd_plant_difference depth)
  have below : 2 ^ depth ≤ 4 ^ depth := Nat.pow_le_pow_left (by decide) depth
  exact_mod_cast halved

theorem powers_sum (preset : Preset) (depth : ℕ) :
    (preset.powers.map fun power => power.1 ^ depth * power.2).sum =
      2 * (preset.segmentCount depth : ℤ) := by
  rw [powers_eq]
  cases preset with
  | plant1 =>
      rw [two_mul_plant_segmentCount]
      simp only [List.map_cons, List.map_nil, List.sum_cons, List.sum_nil]
      ring
  | _ =>
      simp only [segmentCount, List.map_cons, List.map_nil, List.sum_cons, List.sum_nil]
      push_cast
      ring

theorem countP_draws_of_generations {preset : Preset} {depth : ℕ} {text : String}
    (grown : preset.grammar.rules.generations depth preset.grammar.seed = .ok text) :
    (symbols text).countP Symbol.draws = preset.segmentCount depth := by
  have powered : (preset.weighings.map fun weighing =>
      weigh weighing.1 (occurrences (symbols text))) =
        preset.powers.map fun power => power.1 ^ depth * power.2 := by
    rw [powers, List.map_map, Rules.occurrences_generations grown]
    apply List.map_congr_left
    intro weighing member
    exact (weighings_scale preset weighing member).weigh_iterate depth _
  have doubled := weighings_occurrences preset (symbols text)
  rw [powered, powers_sum] at doubled
  omega

variable {α : Type} [Add α] [Sub α] [Mul α] [Zero α] [Trigonometry α]

/-- The counts of the symbols grow by a linear map under any rules, and the segments of every
preset are counted by its closed form at every depth that it grows to. -/
theorem linear_growth_and_segmentCount :
    (∀ (rules : Rules) (count : ℕ) (seed text : String),
      rules.generations count seed = .ok text →
        occurrences (symbols text) =
          rules.countMatrix.mulVec^[count] (occurrences (symbols seed))) ∧
    ∀ (preset : Preset) (depth : UInt32) (text : String),
      Grammar.expand { preset.grammar with iterations := depth } = .ok text →
        ∀ (angle length : α) (start : Point α),
          (interpret text angle length start).segments.length =
            preset.segmentCount depth.toNat := by
  constructor
  · intro rules count seed text grown
    exact Rules.occurrences_generations grown
  · intro preset depth text grown angle length start
    rw [interpret_segments_length]
    exact countP_draws_of_generations grown

theorem dragon_two_generations :
    occurrences (symbols "FX+YF++-FX-YF+") =
        dragon.grammar.rules.countMatrix.mulVec^[2] (occurrences (symbols "FX")) ∧
      (interpret "FX+YF++-FX-YF+" (pi / 2) 1 ⟨0, 0⟩ : Drawing Float).segments.length = 4 :=
  ⟨linear_growth_and_segmentCount (α := Float).1 dragon.grammar.rules 2 "FX" _ (by rfl),
    linear_growth_and_segmentCount.2 dragon 2 _ (by rfl) (pi / 2) 1 ⟨0, 0⟩⟩

end Preset

end Frond
