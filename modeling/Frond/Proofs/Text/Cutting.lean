import Mathlib
import Frond.Text.Characters

/-!
Texts that are cut: at every character of a kind, before the first of a kind, and at both ends as
far as there is white space.
-/

namespace Frond

variable {c : Char} {text : List Char}

theorem not_mem_of_mem_splitOn : ∀ part ∈ text.splitOn c, c ∉ part := by
  induction text with
  | nil => simp
  | cons d rest ih =>
      rw [List.splitOn_cons_eq_if_modifyHead]
      split
      case isTrue =>
        intro part member
        rcases List.mem_cons.mp member with rfl | later
        · exact List.not_mem_nil
        · exact ih part later
      case isFalse other =>
        cases cut : rest.splitOn c with
        | nil => simp
        | cons first parts =>
            rw [cut] at ih
            intro part member
            rcases List.mem_cons.mp member with rfl | later
            · have plain := ih first List.mem_cons_self
              have apart : c ≠ d := fun same => other (by simp [same])
              simp [apart, plain]
            · exact ih part (List.mem_cons_of_mem _ later)

theorem bne_of_not_mem (absent : c ∉ text) : ∀ d ∈ text, (d != c) = true := by
  intro d member
  exact bne_iff_ne.mpr fun same => absent (same ▸ member)

/-- A text is cut before the first character of a kind, or not at all. -/
theorem span_bne_eq_iff {before rest : List Char} :
    text.span (· != c) = (before, rest) ↔
      text = before ++ rest ∧ c ∉ before ∧ (rest = [] ∨ ∃ after, rest = c :: after) := by
  rw [List.span_eq_takeWhile_dropWhile, Prod.mk.injEq]
  constructor
  · rintro ⟨rfl, rfl⟩
    refine ⟨List.takeWhile_append_dropWhile.symm, ?_, ?_⟩
    · intro member
      simpa using List.mem_takeWhile_imp member
    · cases left : text.dropWhile (· != c) with
      | nil => exact .inl rfl
      | cons d after =>
          have stop := List.head?_dropWhile_not (· != c) text
          rw [left] at stop
          have same : d = c := by simpa using stop
          exact .inr ⟨after, by rw [same]⟩
  · rintro ⟨rfl, absent, ended⟩
    have kept := bne_of_not_mem absent
    rw [List.takeWhile_append_of_pos kept, List.dropWhile_append_of_pos kept]
    rcases ended with rfl | ⟨after, rfl⟩ <;> simp

theorem isSpace_of_graphic (least : 33 ≤ c.toNat) (most : c.toNat ≤ 126) : isSpace c = false := by
  simp only [isSpace, spaceRanges, List.any_cons, List.any_nil, Bool.or_false, Bool.or_eq_false_iff,
    Bool.and_eq_false_iff, decide_eq_false_iff_not]
  omega

/-- White space may stand on either side of a text. -/
def Padded (inner text : List Char) : Prop :=
  ∃ before after, text = before ++ inner ++ after ∧
    (∀ c ∈ before, isSpace c = true) ∧ ∀ c ∈ after, isSpace c = true

theorem padded_trimmed (text : List Char) : Padded (trimmed text) text := by
  refine ⟨text.takeWhile isSpace, (text.dropWhile isSpace).rtakeWhile isSpace, ?_, ?_, ?_⟩
  · rw [List.append_assoc]
    change text = _ ++ ((text.dropWhile isSpace).rdropWhile isSpace ++ _)
    rw [List.rdropWhile_append_rtakeWhile, List.takeWhile_append_dropWhile]
  · intro c member
    exact List.mem_takeWhile_imp member
  · intro c member
    exact List.mem_rtakeWhile_imp member

theorem trimmed_of_padded {inner : List Char} (padded : Padded inner text)
    (tight : ∀ c ∈ inner, isSpace c = false) : trimmed text = inner := by
  obtain ⟨before, after, rfl, left, right⟩ := padded
  rw [trimmed, List.append_assoc, List.dropWhile_append_of_pos left]
  cases inner with
  | nil => rw [List.nil_append, List.dropWhile_eq_nil_iff.mpr right, List.reverse_nil,
      List.dropWhile_nil, List.reverse_nil]
  | cons c rest =>
      have first : isSpace c = false := tight c List.mem_cons_self
      have last : (c :: rest).reverse.dropWhile isSpace = (c :: rest).reverse := by
        apply List.dropWhile_eq_self_iff.mpr
        intro inside
        rw [tight _ (List.mem_reverse.mp (List.getElem_mem inside))]
        decide
      have behind : ∀ c ∈ after.reverse, isSpace c = true := by
        intro c member
        exact right c (List.mem_reverse.mp member)
      rw [List.cons_append, List.dropWhile_cons_of_neg (by simp [first]), ← List.cons_append,
        List.reverse_append, List.dropWhile_append_of_pos behind, last, List.reverse_reverse]

end Frond
