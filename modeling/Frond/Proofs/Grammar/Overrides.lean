import Frond.Rules

/-!
The rules that change their symbol. Their list has each of them once, in the order of the alphabet,
and no other rule, so a rule set can be built again from the list: a rule that is not listed is that
of the identity, and no two entries set the same rule.
-/

namespace Frond

namespace Symbol

/-- The alphabet has the order in which its symbols are declared. -/
theorem index_eq_ctorIdx (symbol : Symbol) : symbol.index = symbol.ctorIdx := by
  cases symbol <;> rfl

theorem pairwise_index_all : all.Pairwise fun left right => left.index < right.index := by
  decide

end Symbol

namespace Rules

variable {rules left right : Rules}

theorem eq_of_replacements
    (same : ∀ symbol, left.replacement symbol = right.replacement symbol) : left = right :=
  congrArg Rules.mk (funext same)

theorem beq_iff : (left == right) = true ↔ left = right := by
  constructor
  · intro alike
    apply eq_of_replacements
    intro symbol
    exact eq_of_beq (List.all_eq_true.mp alike symbol symbol.mem_all)
  · rintro rfl
    exact List.all_eq_true.mpr fun symbol _ => beq_self_eq_true (left.replacement symbol)

/-- The replacements in a row, as the alphabet stands in one. -/
def row (rules : Rules) : List String := Symbol.all.map rules.replacement

theorem getElem?_row (symbol : Symbol) :
    rules.row[symbol.index]? = some (rules.replacement symbol) := by
  cases symbol <;> rfl

theorem row_set (symbol : Symbol) (text : String) :
    (rules.set symbol text).row = rules.row.set symbol.index text := by
  cases symbol <;> rfl

theorem row_setAll (sets : List (Symbol × String)) :
    (rules.setAll sets).row =
      sets.foldl (fun row entry => row.set entry.1.index entry.2) rules.row := by
  induction sets generalizing rules with
  | nil => rfl
  | cons entry sets ih =>
      rw [List.foldl_cons, ← row_set]
      exact ih

/-- Entries that agree with a rule set lead to it in whatever order they are set, if the rules that
none of them names are right from the start. -/
theorem setAll_eq_of_agree {sets : List (Symbol × String)}
    (agree : ∀ entry ∈ sets, right.replacement entry.1 = entry.2)
    (others : ∀ symbol ∉ sets.map Prod.fst, left.replacement symbol = right.replacement symbol) :
    left.setAll sets = right := by
  induction sets generalizing left with
  | nil => exact eq_of_replacements fun symbol => others symbol List.not_mem_nil
  | cons entry sets ih =>
      change (left.set entry.1 entry.2).setAll sets = right
      apply ih
      · exact fun other member => agree other (List.mem_cons_of_mem entry member)
      · intro symbol unnamed
        by_cases first : symbol = entry.1
        · rw [first, replacement_set_self]
          exact (agree entry List.mem_cons_self).symm
        · rw [replacement_set_of_ne _ _ first]
          exact others symbol fun named => (List.mem_cons.mp named).elim first unnamed

theorem fixes_iff (symbol : Symbol) :
    rules.fixes symbol = true ↔ (rules.replacement symbol).toList = [symbol.toChar] := by
  rw [fixes, beq_iff_eq, ← String.toList_inj, String.toList_singleton]

theorem mem_overridden_iff (symbol : Symbol) (text : String) :
    (symbol, text) ∈ rules.overridden ↔
      rules.replacement symbol = text ∧ text.toList ≠ [symbol.toChar] := by
  simp only [overridden, List.mem_map, List.mem_filter, Prod.mk.injEq]
  constructor
  · rintro ⟨_, ⟨_, changed⟩, rfl, rfl⟩
    refine ⟨rfl, fun own => ?_⟩
    rw [(fixes_iff _).mpr own] at changed
    cases changed
  · rintro ⟨rfl, changed⟩
    refine ⟨symbol, ⟨symbol.mem_all, ?_⟩, rfl, rfl⟩
    rw [ne_eq, ← fixes_iff, Bool.not_eq_true] at changed
    rw [changed]
    rfl

theorem pairwise_overridden :
    rules.overridden.Pairwise fun left right => left.1.index < right.1.index :=
  List.pairwise_map.mpr (Symbol.pairwise_index_all.filter _)

theorem setAll_of_perm_overridden {sets : List (Symbol × String)}
    (same : sets.Perm rules.overridden) : identity.setAll sets = rules := by
  apply setAll_eq_of_agree
  · intro entry member
    exact ((mem_overridden_iff entry.1 entry.2).mp (same.mem_iff.mp member)).1
  · intro symbol unlisted
    by_cases own : (rules.replacement symbol).toList = [symbol.toChar]
    · rw [← String.toList_inj, own]
      exact String.toList_singleton symbol.toChar
    · have listed := same.mem_iff.mpr ((mem_overridden_iff symbol _).mpr ⟨rfl, own⟩)
      exact absurd (List.mem_map_of_mem listed) unlisted

theorem overridden_inj : left.overridden = right.overridden ↔ left = right := by
  refine ⟨fun same => ?_, congrArg overridden⟩
  have restored : identity.setAll left.overridden = left := setAll_of_perm_overridden (.refl _)
  rw [same, setAll_of_perm_overridden (.refl _)] at restored
  exact restored.symm

theorem overridden_identity : identity.overridden = [] := by
  decide

/-- A list tells a rule set by the rules that change their symbol. -/
structure Changes (rules : Rules) (list : List (Symbol × String)) : Prop where
  ordered : list.Pairwise fun left right => left.1.index < right.1.index
  mem_iff : ∀ symbol text, (symbol, text) ∈ list ↔
    rules.replacement symbol = text ∧ text.toList ≠ [symbol.toChar]
  restores : ∀ sets : List (Symbol × String), sets.Perm list → identity.setAll sets = rules
  none : rules = identity ↔ list = []
  /-- The comparison of rule sets, symbol by symbol, comes to the same. -/
  compared : (rules == identity) = true ↔ list = []

theorem changes_overridden (rules : Rules) : rules.Changes rules.overridden := by
  have none : rules = identity ↔ rules.overridden = [] := by
    rw [← overridden_identity, overridden_inj]
  exact {
    ordered := pairwise_overridden
    mem_iff := mem_overridden_iff
    restores := fun _ => setAll_of_perm_overridden
    none := none
    compared := beq_iff.trans none }

end Rules

end Frond
