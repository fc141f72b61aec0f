import Mathlib.Order.Bounds.Basic

/-!
Texts turned into each other by single edits: a character inserted, one deleted, or one replaced.
The least number of edits between two texts is given by a recursion over their first characters:
either the one is deleted, or the other inserted, or the one stands for the other.
-/

namespace Frond.EditDistance

variable {α : Type}

/-- One edit, at any place of the text. -/
inductive OneEdit : List α → List α → Prop where
  | insert (before : List α) (c : α) (after : List α) :
      OneEdit (before ++ after) (before ++ c :: after)
  | delete (before : List α) (c : α) (after : List α) :
      OneEdit (before ++ c :: after) (before ++ after)
  | replace (before : List α) (c d : α) (after : List α) :
      OneEdit (before ++ c :: after) (before ++ d :: after)

/-- So many edits, one after the other. -/
inductive Edits : Nat → List α → List α → Prop where
  | refl (text : List α) : Edits 0 text text
  | step {count : Nat} {source between text : List α} (first : OneEdit source between)
      (rest : Edits count between text) : Edits (count + 1) source text

theorem OneEdit.cons {source text : List α} (e : α) (edit : OneEdit source text) :
    OneEdit (e :: source) (e :: text) := by
  cases edit with
  | insert before c after => exact .insert (e :: before) c after
  | delete before c after => exact .delete (e :: before) c after
  | replace before c d after => exact .replace (e :: before) c d after

theorem OneEdit.reverse {source text : List α} (edit : OneEdit source text) :
    OneEdit source.reverse text.reverse := by
  cases edit with
  | insert before c after => simpa using OneEdit.insert after.reverse c before.reverse
  | delete before c after => simpa using OneEdit.delete after.reverse c before.reverse
  | replace before c d after => simpa using OneEdit.replace after.reverse c d before.reverse

theorem Edits.cons {count : Nat} {source text : List α} (e : α) (edits : Edits count source text) :
    Edits count (e :: source) (e :: text) := by
  induction edits with
  | refl text => exact .refl (e :: text)
  | step first _ ih => exact .step (first.cons e) ih

theorem Edits.reverse {count : Nat} {source text : List α} (edits : Edits count source text) :
    Edits count source.reverse text.reverse := by
  induction edits with
  | refl text => exact .refl text.reverse
  | step first _ ih => exact .step first.reverse ih

theorem edits_reverse {count : Nat} {source text : List α} :
    Edits count source.reverse text.reverse ↔ Edits count source text := by
  refine ⟨fun edits => ?_, Edits.reverse⟩
  simpa using edits.reverse

theorem edits_nil (text : List α) : Edits text.length [] text := by
  induction text with
  | nil => exact .refl []
  | cons d text ih => exact .step (.insert [] d []) (ih.cons d)

theorem edits_to_nil (source : List α) : Edits source.length source [] := by
  induction source with
  | nil => exact .refl []
  | cons c source ih => exact .step (.delete [] c source) ih

theorem edits_min {first second : Nat} {source text : List α} (one : Edits first source text)
    (other : Edits second source text) : Edits (min first second) source text := by
  rcases Nat.le_total first second with least | least
  · rwa [Nat.min_eq_left least]
  · rwa [Nat.min_eq_right least]

variable [DecidableEq α]

/-- The price of turning one text into another, first characters first. -/
def cost : List α → List α → Nat
  | [], text => text.length
  | _ :: source, [] => source.length + 1
  | c :: source, d :: text =>
    min (min (cost source (d :: text) + 1) (cost (c :: source) text + 1))
      (cost source text + if c = d then 0 else 1)

theorem cost_nil (text : List α) : cost [] text = text.length := by
  rw [cost]

theorem cost_to_nil (source : List α) : cost source [] = source.length := by
  cases source with
  | nil => rw [cost]
  | cons c source => rw [cost, List.length_cons]

theorem cost_self (text : List α) : cost text text = 0 := by
  induction text with
  | nil => rw [cost]; rfl
  | cons c text ih =>
      rw [cost, ih, if_pos rfl]
      omega

/-! One more character makes a difference of at most one, on either side. -/

theorem cost_cons_le (c : α) (source text : List α) :
    cost (c :: source) text ≤ cost source text + 1 := by
  cases text with
  | nil => rw [cost_to_nil, cost_to_nil]; rfl
  | cons d text =>
      rw [cost]
      omega

theorem cost_cons_right_le (d : α) (source text : List α) :
    cost source (d :: text) ≤ cost source text + 1 := by
  cases source with
  | nil => rw [cost_nil, cost_nil]; rfl
  | cons c source =>
      rw [cost]
      omega

theorem cost_le_cons (c : α) (source text : List α) :
    cost source text ≤ cost (c :: source) text + 1 := by
  induction text with
  | nil =>
      rw [cost_to_nil, cost_to_nil, List.length_cons]
      omega
  | cons d text ih =>
      have longer := cost_cons_right_le d source text
      rw [cost]
      omega

theorem cost_replace_le (c d : α) (source text : List α) :
    cost (c :: source) text ≤ cost (d :: source) text + 1 := by
  induction text with
  | nil =>
      rw [cost_to_nil, cost_to_nil]
      exact Nat.le_succ _
  | cons e text ih =>
      rw [cost, cost]
      split <;> split <;> omega

/-- Texts that are near each other stay so behind a common beginning. -/
theorem cost_append_le {source between : List α}
    (near : ∀ text, cost source text ≤ cost between text + 1) (before text : List α) :
    cost (before ++ source) text ≤ cost (before ++ between) text + 1 := by
  induction before generalizing text with
  | nil => exact near text
  | cons e before ih =>
      simp only [List.cons_append]
      -- To insert a character of the text leaves the beginning in place, so the text is taken off too.
      induction text with
      | nil =>
          have shorter := ih []
          simp only [cost_to_nil, List.length_cons] at shorter ⊢
          omega
      | cons d text later =>
          have deleted := ih (d :: text)
          have kept := ih text
          rw [cost, cost]
          omega

theorem cost_le_of_oneEdit {source between : List α} (edit : OneEdit source between)
    (text : List α) : cost source text ≤ cost between text + 1 := by
  cases edit with
  | insert before c after => exact cost_append_le (cost_le_cons c after) before text
  | delete before c after => exact cost_append_le (cost_cons_le c after) before text
  | replace before c d after => exact cost_append_le (cost_replace_le c d after) before text

theorem cost_le_of_edits {count : Nat} {source text : List α} (edits : Edits count source text) :
    cost source text ≤ count := by
  induction edits with
  | refl text => exact (cost_self text).le
  | step first _ ih => exact (cost_le_of_oneEdit first _).trans (Nat.succ_le_succ ih)

theorem edits_cost (source text : List α) : Edits (cost source text) source text := by
  fun_induction cost source text with
  | case1 text => exact edits_nil text
  | case2 c source => exact edits_to_nil (c :: source)
  | case3 c source d text deleted inserted kept =>
      have first : Edits _ (c :: source) (d :: text) := .step (.delete [] c source) deleted
      have second : Edits _ (c :: source) (d :: text) :=
        .step (.insert [] d (c :: source)) (inserted.cons d)
      have third : Edits (cost source text + if c = d then 0 else 1) (c :: source) (d :: text) := by
        split
        case isTrue same =>
            rw [same]
            exact kept.cons d
        case isFalse => exact .step (.replace [] c d source) (kept.cons d)
      exact edits_min (edits_min first second) third

theorem eq_of_cost_eq_zero {source text : List α} (none : cost source text = 0) : source = text := by
  have edits := edits_cost source text
  rw [none] at edits
  cases edits
  rfl

theorem cost_isLeast (source text : List α) :
    IsLeast {count | Edits count source text} (cost source text) :=
  ⟨edits_cost source text, fun _ edits => cost_le_of_edits edits⟩

/-- It makes no difference at which end one begins. -/
theorem cost_reverse (source text : List α) :
    cost source.reverse text.reverse = cost source text := by
  have backwards := cost_isLeast source.reverse text.reverse
  simp only [edits_reverse] at backwards
  exact backwards.unique (cost_isLeast source text)

end Frond.EditDistance
