import Mathlib
import Frond.Proofs.Preset.Names
import Frond.Proofs.Text.TwoRows

/-!
What is suggested for a name that no preset has. The presets whose slugs are near enough are sorted
by their distance, and the first ones are taken. The sort keeps equally near ones in the order of
the table, so what is left out is never nearer than what is listed. A distance of zero does not
occur, as a name with the normal form of a slug is found.
-/

namespace Frond

section

variable {α : Type} (key : α → Nat) (items : List α)

/-- Items sorted by a key, the least one first. -/
def ranked : List α := items.mergeSort fun a b => key a ≤ key b

/-- One item stands before another in a sorted list: its key is less, or the keys are equal and it
stood before the other one already. -/
def Precedes (a b : α) : Prop := key a < key b ∨ key a = key b ∧ [a, b].Sublist items

theorem key_trans (a b c : α) (first : decide (key a ≤ key b) = true)
    (second : decide (key b ≤ key c) = true) : decide (key a ≤ key c) = true := by
  rw [decide_eq_true_eq] at *
  exact first.trans second

theorem key_total (a b : α) : (decide (key a ≤ key b) || decide (key b ≤ key a)) = true := by
  simpa using Nat.le_total (key a) (key b)

theorem ranked_perm : (ranked key items).Perm items := List.mergeSort_perm items _

/-- Items of one key keep their order. -/
theorem filter_ranked (value : Nat) :
    (ranked key items).filter (key · = value) = items.filter (key · = value) := by
  have tied : (items.filter (key · = value)).Pairwise fun a b => decide (key a ≤ key b) = true := by
    rw [List.pairwise_filter]
    apply List.pairwise_of_forall
    intro a b first second
    rw [decide_eq_true_eq] at *
    exact (first.trans second.symm).le
  have kept : (items.filter (key · = value)).Sublist (ranked key items) :=
    List.sublist_mergeSort (key_trans key) (key_total key) tied List.filter_sublist
  have inside := kept.filter (key · = value)
  simp only [List.filter_filter, Bool.and_self] at inside
  have counted := ((ranked_perm key items).filter (key · = value)).length_eq
  exact (inside.eq_of_length counted.symm).symm

theorem pairwise_ranked : (ranked key items).Pairwise (Precedes key items) := by
  rw [List.pairwise_iff_forall_sublist]
  intro a b stand
  have sorted := List.pairwise_mergeSort (key_trans key) (key_total key) items
  have least : key a ≤ key b := by
    simpa using List.pairwise_iff_forall_sublist.mp sorted stand
  rcases least.lt_or_eq with less | same
  · exact .inl less
  · refine .inr ⟨same, ?_⟩
    have tied := stand.filter (key · = key b)
    rw [filter_ranked] at tied
    simp only [same, decide_true, List.filter_cons_of_pos, List.filter_nil] at tied
    exact tied.trans List.filter_sublist

/-- An item that is not among the first ones comes after all of them, and there is no room left. -/
theorem precedes_of_not_mem_take {count : Nat} {last : α} (member : last ∈ items)
    (left : last ∉ (ranked key items).take count) :
    ((ranked key items).take count).length = count ∧
      ∀ a ∈ (ranked key items).take count, Precedes key items a last := by
  have whole := List.take_append_drop count (ranked key items)
  have dropped : last ∈ (ranked key items).drop count := by
    have sorted := (ranked_perm key items).mem_iff.mpr member
    rw [← whole, List.mem_append] at sorted
    exact sorted.resolve_left left
  constructor
  · have further := List.length_pos_of_mem dropped
    rw [List.length_drop] at further
    rw [List.length_take]
    omega
  · intro a first
    have order := pairwise_ranked key items
    rw [← whole] at order
    exact order.rel_of_mem_append first dropped

end

namespace Preset

variable (wanted : List Char)

/-- The presets whose slugs are near enough to a normal form. -/
def near : List Preset := all.filter fun preset => preset.distance wanted ≤ maxDistance

/-- The presets whose slugs are suggested for a normal form. -/
def suggested : List Preset := (ranked (distance · wanted) (near wanted)).take maxSuggestions

theorem suggestions_eq_map : suggestions wanted = (suggested wanted).map slug := rfl

theorem mem_near {preset : Preset} : preset ∈ near wanted ↔ preset.distance wanted ≤ 3 := by
  rw [near, List.mem_filter, decide_eq_true_eq]
  exact and_iff_right preset.mem_all

theorem mem_near_of_suggested {preset : Preset} (listed : preset ∈ suggested wanted) :
    preset ∈ near wanted :=
  (ranked_perm _ _).mem_iff.mp (List.mem_of_mem_take listed)

theorem slug_injective : ∀ preset ∈ all, ∀ other ∈ all, preset.slug = other.slug →
    preset = other := by
  decide +kernel

theorem nodup_suggested : ((suggested wanted).map slug).Nodup := by
  have table : all.Nodup := by decide
  have unique : (suggested wanted).Nodup :=
    ((ranked_perm _ _).nodup_iff.mpr (table.filter _)).take
  refine unique.map_on ?_
  intro preset _ other _ same
  exact slug_injective preset preset.mem_all other other.mem_all same

theorem pairwise_suggested : (suggested wanted).Pairwise (Precedes (distance · wanted) all) := by
  have order := (pairwise_ranked (distance · wanted) (near wanted)).sublist
    (List.take_sublist maxSuggestions _)
  refine order.imp fun precedes => ?_
  exact precedes.imp_right fun ⟨same, stand⟩ => ⟨same, stand.trans List.filter_sublist⟩

theorem precedes_of_not_mem_suggested {preset : Preset} (close : preset.distance wanted ≤ 3)
    (left : preset ∉ suggested wanted) :
    (suggested wanted).length = 3 ∧
      ∀ other ∈ suggested wanted, Precedes (distance · wanted) all other preset := by
  obtain ⟨full, before⟩ := precedes_of_not_mem_take _ _ ((mem_near wanted).mpr close) left
  refine ⟨full, fun other listed => ?_⟩
  exact (before other listed).imp_right fun ⟨same, stand⟩ => ⟨same, stand.trans List.filter_sublist⟩

theorem suggested_eq_nil_iff :
    suggested wanted = [] ↔ ∀ preset : Preset, 3 < preset.distance wanted := by
  constructor
  · intro none preset
    by_contra close
    have left : preset ∉ suggested wanted := by
      rw [none]
      exact List.not_mem_nil
    obtain ⟨full, _⟩ := precedes_of_not_mem_suggested wanted (not_lt.mp close) left
    rw [none] at full
    cases full
  · intro far
    rw [List.eq_nil_iff_forall_not_mem]
    intro preset listed
    have close := (mem_near wanted).mp (mem_near_of_suggested wanted listed)
    exact absurd close (not_le.mpr (far preset))

/-- The least number of characters to insert, delete and replace between the slug and a name, both
in normal form. -/
noncomputable def editsFrom (preset : Preset) (name : String) : Nat :=
  sInf {count | EditDistance.Edits count (normalize preset.slug) (normalize name)}

theorem distance_eq_editsFrom (preset : Preset) (name : String) :
    preset.distance (normalize name) = preset.editsFrom name := by
  rw [distance, EditDistance.distance_eq_cost]
  exact (EditDistance.cost_isLeast _ _).csInf_eq.symm

theorem editsFrom_pos {preset : Preset} {name : String} (unknown : normalize name ∉ preset.forms) :
    1 ≤ preset.editsFrom name := by
  rw [Nat.one_le_iff_ne_zero, ← distance_eq_editsFrom, distance, EditDistance.distance_eq_cost]
  intro none
  apply unknown
  rw [← EditDistance.eq_of_cost_eq_zero none]
  exact List.mem_cons_self

/-- What holds of the presets whose slugs are listed for a name. -/
structure Nearest (name : String) (listed : List Preset) : Prop where
  few : listed.length ≤ 3
  distinct : (listed.map slug).Nodup
  near : ∀ preset ∈ listed, 1 ≤ preset.editsFrom name ∧ preset.editsFrom name ≤ 3
  ordered : listed.Pairwise (Precedes (editsFrom · name) all)
  left : ∀ preset ∉ listed, preset.editsFrom name ≤ 3 →
    listed.length = 3 ∧ ∀ other ∈ listed, Precedes (editsFrom · name) all other preset
  empty : listed = [] ↔ ∀ preset : Preset, 3 < preset.editsFrom name
  found : ∀ preset ∈ listed, ofName preset.slug = .ok preset

theorem nearest_suggested {name : String}
    (unknown : ∀ preset : Preset, normalize name ∉ preset.forms) :
    Nearest name (suggested (normalize name)) where
  few := List.length_take_le 3 _
  distinct := nodup_suggested _
  near := by
    intro preset listed
    have close := (mem_near _).mp (mem_near_of_suggested _ listed)
    rw [distance_eq_editsFrom] at close
    exact ⟨editsFrom_pos (unknown preset), close⟩
  ordered := by
    have order := pairwise_suggested (normalize name)
    simp only [distance_eq_editsFrom] at order
    exact order
  left := by
    intro preset absent close
    rw [← distance_eq_editsFrom] at close
    have full := precedes_of_not_mem_suggested _ close absent
    simp only [distance_eq_editsFrom] at full
    exact full
  empty := by
    rw [suggested_eq_nil_iff]
    simp only [distance_eq_editsFrom]
  found := by
    intro preset _
    rw [ofName_eq_ok_iff]
    exact List.mem_cons_self

/-- Whatever name is not found is answered with the slugs that are nearest to it. -/
theorem nearest_of_unknown {name : String} {failure : Failure}
    (unknown : ofName name = .error failure) :
    ∃ listed : List Preset,
      failure = .unknownPreset name (listed.map slug) ∧ Nearest name listed := by
  obtain ⟨rfl, foreign⟩ := ofName_eq_error_iff.mp unknown
  exact ⟨suggested (normalize name), rfl, nearest_suggested foreign⟩

/-- One slug is nearer than two others, which stand before it in the table. -/
theorem three_slugs_nearest :
    ofName "is-Lant" = .error (.unknownPreset "is-Lant" ["islands", "plant1", "plant2"]) ∧
      ∃ listed : List Preset,
        listed.map slug = ["islands", "plant1", "plant2"] ∧ Nearest "is-Lant" listed := by
  have close : near (normalize "is-Lant") = [plant1, plant2, islands] := by decide +kernel
  have first : islands.distance (normalize "is-Lant") = 2 := by decide +kernel
  have second : plant1.distance (normalize "is-Lant") = 3 := by decide +kernel
  have third : plant2.distance (normalize "is-Lant") = 3 := by decide +kernel
  have sorted : suggested (normalize "is-Lant") = [islands, plant1, plant2] := by
    rw [suggested, close, ranked]
    simp [List.mergeSort, first, second, third, maxSuggestions]
  have foreign : ∀ preset : Preset, normalize "is-Lant" ∉ preset.forms := by
    intro preset
    cases preset <;> decide +kernel
  have unknown : ofName "is-Lant" =
      .error (.unknownPreset "is-Lant" ["islands", "plant1", "plant2"]) := by
    rw [ofName_eq_error_iff, suggestions_eq_map, sorted]
    exact ⟨rfl, foreign⟩
  obtain ⟨listed, same, nearest⟩ := nearest_of_unknown unknown
  exact ⟨unknown, listed, (Failure.unknownPreset.inj same).2.symm, nearest⟩

end Preset

end Frond
