import Mathlib
import Frond.Text.EditDistance
import Frond.Proofs.Text.EditScripts

/-!
The distance is the least number of edits between two texts. Its rows hold the costs of what was
read of the one text against every beginning of the other; two buffers that take turns are enough
to fill them, since a row is needed only until the next one is done.
-/

namespace Frond.EditDistance

open Std.Do

set_option mvcgen.warning false

variable {α : Type}

theorem reverse_take_succ {text : List α} {j : Nat} (inside : j < text.length) :
    (text.take (j + 1)).reverse = text[j] :: (text.take j).reverse := by
  rw [List.take_succ_eq_append_getElem inside, List.reverse_append]
  rfl

theorem toList_range (n : Nat) : [:n].toList = List.range n := by
  rw [Std.Legacy.Range.toList, List.range_eq_range']
  simp

/-- An element of a range comes after as many as it counts. -/
theorem length_of_range {n i : Nat} {before after : List Nat}
    (split : [:n].toList = before ++ i :: after) : before.length = i := by
  have here : (List.range n)[before.length]? = some i := by
    rw [← toList_range, split, List.getElem?_append_right le_rfl, Nat.sub_self]
    rfl
  rcases List.getElem?_eq_some_iff.mp here with ⟨_, same⟩
  rwa [List.getElem_range] at same

variable [DecidableEq α]

/-- The costs of one text against another that is continued, character by character; what was read
of the two stands with its last character first. -/
def costs (source text : List α) : List α → List Nat
  | [] => [cost source text]
  | d :: rest => cost source text :: costs source (d :: text) rest

theorem costs_nil (text rest : List α) :
    costs [] text rest = List.range' text.length (rest.length + 1) := by
  induction rest generalizing text with
  | nil => rw [costs, cost_nil]; rfl
  | cons d rest ih => rw [costs, ih, cost_nil]; rfl

theorem getLastD_costs (source text rest : List α) :
    (costs source text rest).getLastD 0 = cost source (rest.reverse ++ text) := by
  induction rest generalizing text with
  | nil => rfl
  | cons d rest ih =>
      have later := ih (d :: text)
      simp only [costs, List.reverse_cons, List.append_assoc, List.singleton_append]
      rw [← later]
      cases rest <;> rfl

theorem costs_eq_cons (source text rest : List α) :
    costs source text rest = cost source text :: (costs source text rest).tail := by
  cases rest <;> rfl

theorem rowAfter_costs (c : α) (source text rest : List α) :
    rowAfter c (cost source text) (cost (c :: source) text) (costs source text rest).tail rest =
      (costs (c :: source) text rest).tail := by
  induction rest generalizing text with
  | nil => rfl
  | cons d rest ih =>
      have entry : cost (c :: source) (d :: text) =
          min (min (cost source (d :: text) + 1) (cost (c :: source) text + 1))
            (cost source text + if c = d then 0 else 1) := by rw [cost]
      rw [costs, costs, List.tail_cons, List.tail_cons, costs_eq_cons source, rowAfter, ← entry, ih,
        ← costs_eq_cons]

theorem nextRow_costs (c : α) (source text : List α) :
    nextRow text (costs source [] text) c = costs (c :: source) [] text := by
  have corner : cost source [] + 1 = cost (c :: source) [] := by
    rw [cost_to_nil, cost_to_nil]
    rfl
  rw [costs_eq_cons source, nextRow, corner, rowAfter_costs, ← costs_eq_cons]

theorem foldl_nextRow (source read text : List α) :
    source.foldl (nextRow text) (costs read [] text) = costs (source.reverse ++ read) [] text := by
  induction source generalizing read with
  | nil => rfl
  | cons c source ih =>
      rw [List.foldl_cons, nextRow_costs, ih, List.reverse_cons, List.append_assoc]
      rfl

theorem distance_eq_cost (source text : List α) : distance source text = cost source text := by
  have first : List.range (text.length + 1) = costs [] [] text := by
    rw [costs_nil, List.range_eq_range']
    rfl
  rw [distance, first, foldl_nextRow, getLastD_costs, List.append_nil, List.append_nil, cost_reverse]

/-- A row filled from the left in a buffer whose old entries are of no use any more. -/
def fillRow (c : α) (text : List α) (count : Nat) (above buffer : Vector Nat (text.length + 1)) :
    Vector Nat (text.length + 1) := Id.run do
  let mut row := buffer.set 0 count
  for inside : j in [0:text.length] do
    have : j < text.length := Membership.get_elem_helper inside rfl
    let replaced := if c = text[j] then 0 else 1
    row := row.set (j + 1) (min (min (above[j + 1] + 1) (row[j] + 1)) (above[j] + replaced))
  return row

/-- The distance in two buffers: the one holds the row above while the other is filled. -/
def twoRows (source text : List α) : Nat := Id.run do
  if source.length = 0 then return text.length
  if text.length = 0 then return source.length
  let mut above := Vector.range (text.length + 1)
  let mut row := Vector.replicate (text.length + 1) 0
  for inside : i in [0:source.length] do
    have : i < source.length := Membership.get_elem_helper inside rfl
    row := fillRow source[i] text (i + 1) above row
    (above, row) := (row, above)
  return above[text.length]

/-- A row up to an entry holds the costs of what was read of the source. -/
def Filled (source text : List α) (row : Vector Nat (text.length + 1)) (upTo : Nat) : Prop :=
  ∀ j (inside : j < text.length + 1), j ≤ upTo → row[j] = cost source (text.take j).reverse

theorem Filled.first (c : α) (source text : List α) (buffer : Vector Nat (text.length + 1)) :
    Filled (c :: source) text (buffer.set 0 (source.length + 1)) 0 := by
  intro j inside upTo
  cases Nat.le_zero.mp upTo
  rw [Vector.getElem_set_self, List.take_zero, List.reverse_nil, cost_to_nil]
  rfl

theorem Filled.next {c : α} {source text : List α} {above row : Vector Nat (text.length + 1)}
    (full : Filled source text above text.length) {j : Nat}
    (filled : Filled (c :: source) text row j) (inside : j < text.length) :
    Filled (c :: source) text
      (row.set (j + 1) (min (min (above[j + 1] + 1) (row[j] + 1))
        (above[j] + if c = text[j] then 0 else 1))) (j + 1) := by
  intro k bound upTo
  rcases Nat.lt_or_eq_of_le upTo with before | rfl
  · rw [Vector.getElem_set_ne _ _ (by omega)]
    exact filled k bound (by omega)
  · rw [Vector.getElem_set_self, full j (by omega) (by omega), full (j + 1) (by omega) (by omega),
      filled j (by omega) (by omega), reverse_take_succ inside, cost]

theorem filled_fillRow (c : α) {source text : List α} {above : Vector Nat (text.length + 1)}
    (full : Filled source text above text.length) (buffer : Vector Nat (text.length + 1)) :
    Filled (c :: source) text (fillRow c text (source.length + 1) above buffer) text.length := by
  generalize run : fillRow c text (source.length + 1) above buffer = row
  apply Id.of_wp_run_eq run (Filled (c :: source) text · text.length)
  mvcgen
  case inv1 => exact ⇓state => ⌜Filled (c :: source) text state.2 state.1.pos⌝
  case vc1.step before j after split row inside _ _ filled =>
    have count := length_of_range split
    change Filled _ _ row before.length at filled
    change Filled _ _ _ (before ++ [j]).length
    rw [count] at filled
    rw [List.length_append, count]
    exact full.next filled inside
  case vc2.pre => exact Filled.first c source text buffer
  case vc3.post.success row filled =>
    change Filled _ _ row [:text.length].toList.length at filled
    rwa [toList_range, List.length_range] at filled

theorem twoRows_eq_cost (source text : List α) : twoRows source text = cost source text := by
  generalize run : twoRows source text = out
  apply Id.of_wp_run_eq run (· = cost source text)
  mvcgen
  -- The other buffer is free: whatever it holds is written over in the next round.
  case inv1 =>
    exact ⇓state =>
      ⌜Filled (source.take state.1.pos).reverse text state.2.1 text.length⌝
  case vc1.isTrue empty => rw [List.eq_nil_of_length_eq_zero empty, cost_nil]
  case vc2.isFalse.isTrue empty => rw [List.eq_nil_of_length_eq_zero empty, cost_to_nil]
  case vc3.step before i after split buffers above row inside next full =>
    have count := length_of_range split
    change Filled (source.take before.length).reverse text above text.length at full
    change Filled (source.take (before ++ [i]).length).reverse text next text.length
    rw [count] at full
    have read : (source.take i).reverse.length = i := by
      rw [List.length_reverse, List.length_take, Nat.min_eq_left inside.le]
    have filled := filled_fillRow source[i] full row
    rw [read, ← reverse_take_succ inside] at filled
    rwa [List.length_append, count]
  case vc4.isFalse.isFalse.pre =>
    change Filled [] text (Vector.range (text.length + 1)) text.length
    intro j inside upTo
    rw [cost_nil, List.length_reverse, List.length_take, Vector.getElem_range, Nat.min_eq_left upTo]
  case vc5.isFalse.isFalse.post.success buffers full =>
    change Filled (source.take [:source.length].toList.length).reverse text buffers.1
      text.length at full
    rw [toList_range, List.length_range, List.take_length] at full
    rw [full text.length (Nat.lt_succ_self _) le_rfl, List.take_length, cost_reverse]

/-- The distance of two strings, in two buffers that take turns, is the least number of characters
to insert, delete and replace that turns the one into the other. -/
theorem distance_isLeast (source text : String) :
    twoRows source.toList text.toList = distance source.toList text.toList ∧
      IsLeast {count | Edits count source.toList text.toList}
        (distance source.toList text.toList) := by
  rw [twoRows_eq_cost, distance_eq_cost]
  exact ⟨rfl, cost_isLeast source.toList text.toList⟩

end Frond.EditDistance
