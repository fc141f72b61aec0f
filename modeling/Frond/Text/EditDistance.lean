/-!
The distance between two texts, counted in characters inserted, deleted and replaced. It is
filled in row by row: a row holds the distances from what was read of the one text to every
beginning of the other.
-/

namespace Frond.EditDistance

variable {α : Type} [DecidableEq α]

/-- The rest of a row: `corner` is the entry above to the left, `left` the entry before, and
`above` the rest of the row above. -/
def rowAfter (c : α) : (corner left : Nat) → (above : List Nat) → (text : List α) → List Nat
  | corner, left, up :: above, d :: text =>
    let entry := min (min (up + 1) (left + 1)) (corner + if c = d then 0 else 1)
    entry :: rowAfter c up entry above text
  | _, _, _, _ => []

/-- The row below one, after a further character. -/
def nextRow (text : List α) (row : List Nat) (c : α) : List Nat :=
  match row with
  | [] => []
  | corner :: above => (corner + 1) :: rowAfter c corner (corner + 1) above text

/-- The distance between two texts. -/
def distance (source text : List α) : Nat :=
  (source.foldl (nextRow text) (List.range (text.length + 1))).getLastD 0

example : distance "cat".toList "dog".toList = 3 ∧ distance "plant1".toList "plant2".toList = 1 ∧
    distance [] "abc".toList = 3 := by decide

end Frond.EditDistance
