import Frond.Preset.Basic
import Frond.Proofs.Expansion.Branching

/-!
The presets branch as they should: their brackets match at every depth, and the two plants are
the only ones that nest, each as deep as its closed form says.
-/

namespace Frond

namespace Preset

/-- How deep the brackets of a preset nest after some generations. -/
def nestingDepth : Preset → Nat → Nat
  | plant1, depth => 2 * depth
  | plant2, depth => depth
  | _, _ => 0

/-- How high each symbol of a preset reaches after some generations. -/
def heights : Preset → Nat → Symbol → Nat
  | plant1, depth, .x => 2 * depth
  | plant2, depth, .f => depth
  | _, _, _ => 0

theorem branching (preset : Preset) : preset.grammar.rules.Branching where
  push := by cases preset <;> rfl
  pop := by cases preset <;> rfl
  others := by
    intro symbol opens closes
    cases symbol with
    | push => exact absurd rfl opens
    | pop => exact absurd rfl closes
    | _ => cases preset <;> decide +kernel

theorem balanced_seed (preset : Preset) : Balanced preset.grammar.seed := by
  cases preset <;> decide +kernel

theorem image_plant1_x : plant1.grammar.rules.image .x =
    [.f, .minus, .push, .push, .x, .pop, .plus, .x, .pop, .plus, .f, .push, .plus, .f, .x, .pop,
      .minus, .x] := by
  decide +kernel

theorem image_plant2_f : plant2.grammar.rules.image .f =
    [.f, .push, .plus, .f, .pop, .f, .push, .minus, .f, .pop, .push, .f, .pop] := by
  decide +kernel

theorem raise_heights (preset : Preset) (depth : Nat) :
    preset.grammar.rules.raise (preset.heights depth) = preset.heights (depth + 1) := by
  funext symbol
  cases preset with
  | plant1 =>
      cases symbol with
      | x =>
          simp only [Rules.raise, image_plant1_x, peak_cons, peak_nil, Symbol.after, heights]
          omega
      | _ => rfl
  | plant2 =>
      cases symbol with
      | f =>
          simp only [Rules.raise, image_plant2_f, peak_cons, peak_nil, Symbol.after, heights]
          omega
      | _ => rfl
  | _ => cases symbol <;> rfl

theorem iterate_raise (preset : Preset) (depth : Nat) :
    (preset.grammar.rules.raise^[depth] fun _ => 0) = preset.heights depth := by
  induction depth with
  | zero => cases preset <;> funext symbol <;> cases symbol <;> rfl
  | succ depth ih => rw [Function.iterate_succ_apply', ih, raise_heights]

theorem peak_seed (preset : Preset) (depth : Nat) :
    peak (preset.heights depth) 0 (symbols preset.grammar.seed) = preset.nestingDepth depth := by
  cases preset with
  | plant1 =>
      change max (0 + 2 * depth) 0 = 2 * depth
      omega
  | plant2 =>
      change max (0 + depth) 0 = depth
      omega
  | _ => rfl

theorem maxDepth_of_generations {preset : Preset} {depth : Nat} {text : String}
    (grown : preset.grammar.rules.generations depth preset.grammar.seed = .ok text) :
    (countMoves text).maxDepth = preset.nestingDepth depth := by
  rw [preset.branching.maxDepth_generations grown, iterate_raise, peak_seed]

variable {α : Type} [Add α] [Sub α] [Mul α] [Zero α] [Trigonometry α]

/-- Rules that branch keep a text balanced, so that its drawing passes over no bracket and leaves
no pose behind. All presets are of this kind, and their nesting is as deep as their closed form. -/
theorem balanced_growth_and_nestingDepth :
    (∀ (rules : Rules) (seed : String) (count : Nat) (text : String),
      rules.Branching → Balanced seed → rules.generations count seed = .ok text →
        Balanced text ∧
          ∀ (angle length : α) (start : Point α),
            let drawing := interpret text angle length start
            drawing.Matched ∧
              drawing.events = [Drawing.interpretedEvent drawing.segments.length]) ∧
    (∀ preset : Preset, preset.grammar.rules.Branching ∧ Balanced preset.grammar.seed) ∧
    ∀ (preset : Preset) (depth : UInt32) (text : String),
      Grammar.expand { preset.grammar with iterations := depth } = .ok text →
        Balanced text ∧
          (∀ (angle length : α) (start : Point α),
            let drawing := interpret text angle length start
            drawing.Matched ∧
              drawing.events = [Drawing.interpretedEvent drawing.segments.length]) ∧
          (countMoves text).maxDepth = preset.nestingDepth depth.toNat := by
  have drawn : ∀ {text : String}, Balanced text → ∀ (angle length : α) (start : Point α),
      (interpret text angle length start).Matched ∧
        (interpret text angle length start).events =
          [Drawing.interpretedEvent (interpret text angle length start).segments.length] := by
    intro text balanced angle length start
    have matched := balanced.matched angle length start
    exact ⟨matched, matched.events_eq⟩
  refine ⟨?_, fun preset => ⟨preset.branching, preset.balanced_seed⟩, ?_⟩
  · intro rules seed count text branching balanced grown
    have kept := branching.balanced_generations balanced grown
    exact ⟨kept, drawn kept⟩
  · intro preset depth text grown
    have kept := preset.branching.balanced_generations preset.balanced_seed grown
    exact ⟨kept, drawn kept, maxDepth_of_generations grown⟩

theorem plant1_one_generation :
    Balanced "F-[[X]+X]+F[+FX]-X" ∧
      (interpret "F-[[X]+X]+F[+FX]-X" (pi / 8) 1 ⟨0, 0⟩ : Drawing Float).Matched ∧
      (countMoves "F-[[X]+X]+F[+FX]-X").maxDepth = 2 := by
  have grown := balanced_growth_and_nestingDepth (α := Float)
  have general := grown.1 plant1.grammar.rules "X" 1 "F-[[X]+X]+F[+FX]-X" plant1.branching
    plant1.balanced_seed (by rfl)
  have preset := grown.2.2 plant1 1 "F-[[X]+X]+F[+FX]-X" (by rfl)
  exact ⟨general.1, (general.2 (pi / 8) 1 ⟨0, 0⟩).1, preset.2.2⟩

end Preset

end Frond
