import Mathlib.Logic.Relation

/-!
Bracket words. Brackets that find each other can be deleted pair by pair, an opening one together with
the closing one right behind it. In whatever order that is done, what cannot be deleted in the end is
one and the same word: closing brackets that find nothing open, then opening ones that stay open.
-/

namespace Frond

open Relation (ReflTransGen)

def isBracket (c : Char) : Bool := c == '[' || c == ']'

/-- The brackets of a text, in order. -/
def brackets (text : String) : List Char := text.toList.filter isBracket

/-- The second word is the first less an opening bracket and the closing one right behind it. -/
inductive Cancels : List Char → List Char → Prop
  | pair (left right : List Char) : Cancels (left ++ '[' :: ']' :: right) (left ++ right)

namespace Cancels

variable {word next : List Char}

theorem append (cancels : Cancels word next) (behind : List Char) :
    Cancels (word ++ behind) (next ++ behind) := by
  cases cancels with
  | pair left right =>
      rw [List.append_assoc, List.append_assoc]
      exact .pair left (right ++ behind)

theorem length_lt (cancels : Cancels word next) : next.length < word.length := by
  cases cancels with
  | pair left right =>
      simp only [List.length_append, List.length_cons]
      omega

theorem mem (cancels : Cancels word next) {c : Char} (member : c ∈ next) : c ∈ word := by
  cases cancels with
  | pair left right =>
      rw [List.mem_append] at member ⊢
      exact member.imp_right fun later => List.mem_cons_of_mem _ (List.mem_cons_of_mem _ later)

end Cancels

/-- How many brackets find no partner. -/
structure Loose where
  closing : Nat := 0
  opening : Nat := 0
  deriving DecidableEq

namespace Loose

/-- A closing bracket takes one of the opening brackets away, if there is one. -/
def step (loose : Loose) (c : Char) : Loose :=
  if c = '[' then { loose with opening := loose.opening + 1 }
  else if c = ']' then
    match loose.opening with
    | 0 => { loose with closing := loose.closing + 1 }
    | opening + 1 => { loose with opening }
  else loose

def along (loose : Loose) (word : List Char) : Loose := word.foldl step loose

/-- The brackets without a partner as a word. -/
def word (loose : Loose) : List Char :=
  List.replicate loose.closing ']' ++ List.replicate loose.opening '['

theorem step_of_not_bracket (loose : Loose) {c : Char} (other : isBracket c = false) :
    loose.step c = loose := by
  simp only [isBracket, Bool.or_eq_false_iff, beq_eq_false_iff_ne] at other
  rw [step, if_neg other.1, if_neg other.2]

theorem along_cons (loose : Loose) (c : Char) (rest : List Char) :
    loose.along (c :: rest) = (loose.step c).along rest := rfl

theorem along_append (loose : Loose) (left right : List Char) :
    loose.along (left ++ right) = (loose.along left).along right := List.foldl_append

theorem along_filter (loose : Loose) (chars : List Char) :
    loose.along (chars.filter isBracket) = loose.along chars := by
  induction chars generalizing loose with
  | nil => rfl
  | cons c rest ih =>
      cases bracket : isBracket c with
      | true => rw [List.filter_cons_of_pos bracket, along_cons, along_cons, ih]
      | false =>
          rw [List.filter_cons_of_neg (by simp [bracket]), along_cons,
            loose.step_of_not_bracket bracket, ih]

/-! ### Deleting does not change what is loose -/

theorem along_of_cancels (loose : Loose) {word next : List Char} (cancels : Cancels word next) :
    loose.along next = loose.along word := by
  cases cancels with
  | pair left right => rw [along_append, along_append]; rfl

theorem along_of_reduces (loose : Loose) {word next : List Char}
    (reduces : ReflTransGen Cancels word next) : loose.along next = loose.along word := by
  induction reduces with
  | refl => rfl
  | tail _ cancels ih => rw [loose.along_of_cancels cancels, ih]

theorem along_replicate_closing (closing count : Nat) :
    ({ closing } : Loose).along (List.replicate count ']') = { closing := closing + count } := by
  induction count generalizing closing with
  | zero => rfl
  | succ count ih =>
      rw [List.replicate_succ, along_cons, Nat.add_comm count, ← Nat.add_assoc]
      exact ih (closing + 1)

theorem along_replicate_opening (loose : Loose) (count : Nat) :
    loose.along (List.replicate count '[') =
      { loose with opening := loose.opening + count } := by
  induction count generalizing loose with
  | zero => rfl
  | succ count ih =>
      rw [List.replicate_succ, along_cons, Nat.add_comm count, ← Nat.add_assoc]
      exact ih _

theorem along_word (loose : Loose) : ({} : Loose).along loose.word = loose := by
  rw [word, along_append, along_replicate_closing, along_replicate_opening, Nat.zero_add,
    Nat.zero_add]

/-! ### What is loose is what deleting leaves -/

theorem reduces_step (loose : Loose) {c : Char} (bracket : isBracket c = true) :
    ReflTransGen Cancels (loose.word ++ [c]) (loose.step c).word := by
  obtain ⟨closing, opening⟩ := loose
  simp only [isBracket, Bool.or_eq_true, beq_iff_eq] at bracket
  rcases bracket with rfl | rfl
  · have longer : (Loose.mk closing opening).word ++ ['['] =
        (Loose.mk closing (opening + 1)).word := by
      simp only [word, List.append_assoc, ← List.replicate_succ']
    rw [longer]
    exact .refl
  · cases opening with
    | zero =>
        have longer : (Loose.mk closing 0).word ++ [']'] = (Loose.mk (closing + 1) 0).word := by
          simp only [word, List.replicate_zero, List.append_nil, ← List.replicate_succ']
        rw [longer]
        exact .refl
    | succ opening =>
        have cut : (Loose.mk closing (opening + 1)).word ++ [']'] =
            (Loose.mk closing opening).word ++ '[' :: ']' :: [] := by
          simp only [word, List.replicate_succ', List.append_assoc, List.cons_append,
            List.nil_append]
        have deleted := Cancels.pair (Loose.mk closing opening).word []
        rw [List.append_nil, ← cut] at deleted
        exact .single deleted

theorem reduces_along (loose : Loose) (chars : List Char) :
    ReflTransGen Cancels (loose.word ++ chars.filter isBracket) (loose.along chars).word := by
  induction chars generalizing loose with
  | nil =>
      rw [List.filter_nil, List.append_nil]
      exact .refl
  | cons c rest ih =>
      cases bracket : isBracket c with
      | true =>
          have first : ReflTransGen Cancels (loose.word ++ [c] ++ rest.filter isBracket)
              ((loose.step c).word ++ rest.filter isBracket) :=
            (loose.reduces_step bracket).lift (· ++ rest.filter isBracket)
              fun _ _ cancels => cancels.append _
          rw [List.filter_cons_of_pos bracket, List.append_cons, along_cons]
          exact first.trans (ih (loose.step c))
      | false =>
          rw [List.filter_cons_of_neg (by simp [bracket]), along_cons,
            loose.step_of_not_bracket bracket]
          exact ih loose

/-- Every word of brackets can be deleted down to its loose ones. -/
theorem reduces_loose {word : List Char} (only : ∀ c ∈ word, isBracket c = true) :
    ReflTransGen Cancels word (({} : Loose).along word).word := by
  have reduced := ({} : Loose).reduces_along word
  rwa [List.filter_eq_self.mpr only] at reduced

theorem isBracket_of_mem_word {loose : Loose} {c : Char} (member : c ∈ loose.word) :
    isBracket c = true := by
  rw [word, List.mem_append, List.mem_replicate, List.mem_replicate] at member
  rcases member with ⟨_, rfl⟩ | ⟨_, rfl⟩ <;> rfl

theorem length_le_of_reduces {word next : List Char}
    (reduces : ReflTransGen Cancels word next) : next.length ≤ word.length := by
  induction reduces with
  | refl => exact Nat.le_refl _
  | tail _ cancels ih => exact Nat.le_trans (Nat.le_of_lt cancels.length_lt) ih

/-- From loose brackets nothing can be deleted: a shorter word would have the same loose brackets. -/
theorem not_cancels_word (loose : Loose) (next : List Char) : ¬ Cancels loose.word next := by
  intro cancels
  have same : ({} : Loose).along next = loose := by
    rw [along_of_cancels {} cancels, along_word]
  have reduced : ReflTransGen Cancels next loose.word := by
    have left := reduces_loose fun c member => isBracket_of_mem_word (cancels.mem member)
    rwa [same] at left
  have shorter := cancels.length_lt
  have longer := length_le_of_reduces reduced
  omega

end Loose

/-- Deleting pairs until none is left ends in the loose brackets, and in nothing else. -/
theorem reduced_brackets_iff {text : String} {word : List Char} :
    (ReflTransGen Cancels (brackets text) word ∧ ¬ ∃ next, Cancels word next) ↔
      word = (({} : Loose).along text.toList).word := by
  constructor
  · rintro ⟨reduces, final⟩
    have only : ∀ c ∈ word, isBracket c = true := by
      clear final
      induction reduces with
      | refl => exact fun c member => (List.mem_filter.mp member).2
      | tail _ cancels ih => exact fun c member => ih c (cancels.mem member)
    have same : ({} : Loose).along word = ({} : Loose).along text.toList := by
      rw [Loose.along_of_reduces {} reduces, brackets, Loose.along_filter]
    have further := Loose.reduces_loose only
    rw [same] at further
    rcases further.cases_head with done | ⟨next, cancels, _⟩
    · exact done
    · exact absurd ⟨next, cancels⟩ final
  · rintro rfl
    refine ⟨({} : Loose).reduces_along text.toList, ?_⟩
    rintro ⟨next, cancels⟩
    exact Loose.not_cancels_word _ next cancels

example : (({} : Loose).along "]F[[+]é[".toList).word = "][[".toList := by decide

end Frond
