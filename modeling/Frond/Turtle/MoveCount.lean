import Frond.Symbol

/-!
What a walk along a text will need, counted without walking: the segments it draws and the
deepest nesting of its brackets.
-/

namespace Frond

structure MoveCount where
  draws : Nat := 0
  maxDepth : Nat := 0
  deriving DecidableEq, Repr

/-- A count under way, with the number of brackets that are open. -/
structure MoveTally where
  count : MoveCount := {}
  depth : Nat := 0
  deriving DecidableEq, Repr

namespace MoveTally

def step (tally : MoveTally) : Symbol → MoveTally
  | .a | .b | .f => { tally with count := { tally.count with draws := tally.count.draws + 1 } }
  | .push =>
    { count := { tally.count with maxDepth := max tally.count.maxDepth (tally.depth + 1) }
      depth := tally.depth + 1 }
  | .pop => { tally with depth := tally.depth - 1 }
  | _ => tally

end MoveTally

/-- Counts the drawing symbols and the nesting; a closing bracket with none open counts for
nothing. -/
def countMoves (text : String) : MoveCount := ((symbols text).foldl MoveTally.step {}).count

example : countMoves "F[+A[B]]f-X" = { draws := 3, maxDepth := 2 } := by decide

end Frond
