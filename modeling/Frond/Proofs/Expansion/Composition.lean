import Frond.Proofs.Expansion.Overflow

/-!
Growth in parts. Generations can be taken in two goes, and a text can be cut before it grows: as long
as the whole can be counted in every generation, so can its parts, and the grown parts stand in the
grown whole one behind the other.
-/

namespace Frond

namespace Rules

/-- Growing for some generations and then for others is growing for all of them, failures included. -/
theorem generations_add (rules : Rules) (first second : Nat) (text : String) :
    rules.generations (first + second) text =
      rules.generations first text >>= rules.generations second := by
  induction first generalizing text with
  | zero =>
      rw [Nat.zero_add]
      rfl
  | succ first ih =>
      rw [Nat.add_right_comm, generations, generations]
      cases rules.generation text with
      | error failure => rfl
      | ok next => exact ih next

variable {rules : Rules}

/-- The last of several generations, and those before it. -/
theorem generations_succ_last {count : Nat} {text last : String}
    (grown : rules.generations (count + 1) text = .ok last) :
    ∃ before, rules.generations count text = .ok before ∧ rules.generation before = .ok last := by
  rw [generations_add] at grown
  cases earlier : rules.generations count text with
  | error failure =>
      rw [earlier] at grown
      cases grown
  | ok before =>
      rw [earlier] at grown
      obtain ⟨next, once, done⟩ := generations_succ grown
      cases done
      exact ⟨before, rfl, once⟩

theorem generation_eq_ok_iff {text next : String} :
    rules.generation text = .ok next ↔
      (rules.unchecked text).utf8ByteSize < sizeLimit ∧ rules.unchecked text = next := by
  rw [generation_eq]
  split <;> simp_all

theorem unchecked_append (left right : String) :
    rules.unchecked (left ++ right) = rules.unchecked left ++ rules.unchecked right := by
  rw [unchecked, symbols_append, replaceAll, List.map_append, String.join_append]
  rfl

theorem generation_append {left right next : String}
    (grown : rules.generation (left ++ right) = .ok next) :
    ∃ first second, rules.generation left = .ok first ∧ rules.generation right = .ok second ∧
      next = first ++ second := by
  obtain ⟨fits, rfl⟩ := generation_eq_ok_iff.mp grown
  rw [unchecked_append, String.utf8ByteSize_append] at fits
  exact ⟨_, _, generation_eq_ok_iff.mpr ⟨by omega, rfl⟩, generation_eq_ok_iff.mpr ⟨by omega, rfl⟩,
    unchecked_append left right⟩

/-- The parts of a text that grows do grow, and side by side they are the whole. -/
theorem generations_append {count : Nat} {left right last : String}
    (grown : rules.generations count (left ++ right) = .ok last) :
    ∃ first second, rules.generations count left = .ok first ∧
      rules.generations count right = .ok second ∧ last = first ++ second := by
  induction count generalizing left right with
  | zero =>
      cases grown
      exact ⟨left, right, rfl, rfl, rfl⟩
  | succ count ih =>
      obtain ⟨next, once, further⟩ := generations_succ grown
      obtain ⟨leftNext, rightNext, leftOnce, rightOnce, rfl⟩ := generation_append once
      obtain ⟨first, second, leftGrown, rightGrown, joined⟩ := ih further
      refine ⟨first, second, ?_, ?_, joined⟩
      · rw [generations, leftOnce]
        exact leftGrown
      · rw [generations, rightOnce]
        exact rightGrown

theorem generations_empty (rules : Rules) (count : Nat) :
    rules.generations count "" = .ok "" := by
  induction count with
  | zero => rfl
  | succ count ih =>
      have once : rules.generation "" = .ok "" := rfl
      rw [generations, once]
      exact ih

/-- A text that is cut into any number of pieces grows piece by piece. -/
theorem generations_join {count : Nat} {texts : List String} {last : String}
    (grown : rules.generations count (String.join texts) = .ok last) :
    ∃ parts, List.Forall₂ (fun text part => rules.generations count text = .ok part) texts parts ∧
      last = String.join parts := by
  induction texts generalizing last with
  | nil =>
      rw [String.join_nil, generations_empty] at grown
      cases grown
      exact ⟨[], .nil, rfl⟩
  | cons text rest ih =>
      rw [String.join_cons] at grown
      obtain ⟨part, later, first, further, rfl⟩ := generations_append grown
      obtain ⟨parts, each, rfl⟩ := ih further
      exact ⟨part :: parts, .cons first each, String.join_cons.symm⟩

end Rules

theorem join_map_singleton (text : String) :
    String.join (text.toList.map String.singleton) = text := by
  rw [← String.toList_inj, String.toList_join, List.flatMap_map]
  simp

/-- Growth composes over generations, with its failures, and distributes over the parts of a text:
where a text grows, the text of its last generation is that of its parts, and so of its characters
one by one. -/
theorem growth_composes (rules : Rules) :
    (∀ first second text, rules.generations (first + second) text =
      rules.generations first text >>= rules.generations second) ∧
    (∀ count left right last, rules.generations count (left ++ right) = .ok last →
      ∃ first second, rules.generations count left = .ok first ∧
        rules.generations count right = .ok second ∧ last = first ++ second) ∧
    ∀ count text last, rules.generations count text = .ok last →
      ∃ parts, List.Forall₂
        (fun c part => rules.generations count (String.singleton c) = .ok part) text.toList parts ∧
          last = String.join parts := by
  refine ⟨rules.generations_add, fun _ _ _ _ => Rules.generations_append, ?_⟩
  intro count text last grown
  rw [← join_map_singleton text] at grown
  obtain ⟨parts, each, whole⟩ := Rules.generations_join grown
  exact ⟨parts, List.forall₂_map_left_iff.mp each, whole⟩

/-- A branching rule with noise of several bytes in it, on a text that is cut before such noise. -/
theorem branches_grow_apart :
    let rules := Rules.identity.set .f "F[é+F]"
    rules.generations (1 + 1) "FéX-" = (rules.generations 1 "FéX-" >>= rules.generations 1) ∧
      rules.generations 2 ("F" ++ "éX-") = .ok "F[é+F][+F[é+F]]X-" ∧
      (∃ first second, rules.generations 2 "F" = .ok first ∧
        rules.generations 2 "éX-" = .ok second ∧ "F[é+F][+F[é+F]]X-" = first ++ second) ∧
      ∃ parts, List.Forall₂
        (fun c part => rules.generations 2 (String.singleton c) = .ok part) ['F', 'é', 'X', '-']
          parts ∧ "F[é+F][+F[é+F]]X-" = String.join parts := by
  intro rules
  have grown : rules.generations 2 ("F" ++ "éX-") = .ok "F[é+F][+F[é+F]]X-" := by cbv
  obtain ⟨composed, cut, spelled⟩ := growth_composes rules
  exact ⟨composed 1 1 "FéX-", grown, cut 2 "F" "éX-" _ grown, spelled 2 "FéX-" _ grown⟩

end Frond
