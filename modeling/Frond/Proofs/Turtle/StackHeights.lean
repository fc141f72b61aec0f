import Mathlib.Order.Bounds.Basic
import Mathlib.Order.Lattice
import Frond.Proofs.Text.BracketWords
import Frond.Proofs.Turtle.Continuation
import Frond.Proofs.Turtle.Depth

/-!
The stack of a walk against the brackets of its text. The depth that is counted beforehand is the
greatest height that the stack reaches; the brackets that are passed over and the poses that are left
behind are the brackets that find no partner; and all others come in pairs, one for each return of
the turtle to a saved pose.
-/

namespace Frond

variable {α : Type}

namespace Walk

/-- What is loose after a walk: brackets passed over, and poses left on the stack. -/
def loose (walk : Walk α) : Loose := ⟨walk.underflows, walk.saved.size⟩

/-- Whether a symbol makes the turtle return to a saved pose. -/
def returnsAt (walk : Walk α) : Symbol → Bool
  | .pop => walk.saved.pop?.isSome
  | _ => false

variable [Add α] [Sub α] [Mul α] [Trigonometry α]

/-- The stages of a walk: before the first symbol and after each of them. -/
def stages (angle length : α) (walk : Walk α) (word : List Symbol) : List (Walk α) :=
  word.scanl (step angle length) walk

/-- How often a turtle returns to a saved pose: each symbol is met in the stage before it. -/
def returns (angle length : α) (walk : Walk α) (word : List Symbol) : Nat :=
  ((walk.stages angle length word).zip word).countP fun (stage, symbol) => stage.returnsAt symbol

theorem stages_cons (angle length : α) (walk : Walk α) (symbol : Symbol) (rest : List Symbol) :
    walk.stages angle length (symbol :: rest) =
      walk :: (walk.step angle length symbol).stages angle length rest := List.scanl_cons

theorem returns_cons (angle length : α) (walk : Walk α) (symbol : Symbol) (rest : List Symbol) :
    walk.returns angle length (symbol :: rest) =
      (walk.step angle length symbol).returns angle length rest +
        if walk.returnsAt symbol then 1 else 0 := by
  rw [returns, stages_cons, List.zip_cons_cons, List.countP_cons]
  rfl

/-! ### What is loose -/

theorem loose_step (angle length : α) (walk : Walk α) (symbol : Symbol) :
    (walk.step angle length symbol).loose = walk.loose.step symbol.toChar := by
  cases symbol with
  | pop =>
      cases saved : walk.saved.poses with
      | nil =>
          rw [step, restore_of_nil saved]
          simp [loose, Loose.step, Symbol.toChar, PoseStack.size, saved]
      | cons pose rest =>
          rw [step, restore_of_cons saved]
          simp [loose, Loose.step, Symbol.toChar, PoseStack.size, saved]
  | _ => rfl

theorem loose_along (angle length : α) (walk : Walk α) (chars : List Char) :
    (walk.along angle length (chars.filterMap Symbol.ofChar?)).loose =
      walk.loose.along chars := by
  induction chars generalizing walk with
  | nil => rfl
  | cons c rest ih =>
      cases known : Symbol.ofChar? c with
      | none =>
          have other : isBracket c = false := by
            cases bracket : isBracket c with
            | false => rfl
            | true =>
                simp only [isBracket, Bool.or_eq_true, beq_iff_eq] at bracket
                rcases bracket with rfl | rfl <;> cases known
          rw [List.filterMap_cons_none known, ih, Loose.along_cons,
            Loose.step_of_not_bracket _ other]
      | some symbol =>
          obtain rfl := Symbol.ofChar?_eq_some_iff.mp known
          rw [List.filterMap_cons_some known, along_cons, ih, Loose.along_cons, loose_step]

/-! ### Heights -/

theorem size_step (angle length : α) (walk : Walk α) (symbol : Symbol) :
    (walk.step angle length symbol).saved.size = symbol.after walk.saved.size := by
  cases symbol with
  | pop =>
      cases saved : walk.saved.poses with
      | nil =>
          rw [step, restore_of_nil saved]
          simp [Symbol.after, PoseStack.size, saved]
      | cons pose rest =>
          rw [step, restore_of_cons saved]
          simp [Symbol.after, PoseStack.size, saved]
  | _ => rfl

/-- The heights of the stack at the stages of a walk. -/
def heights (angle length : α) (walk : Walk α) (word : List Symbol) : Set Nat :=
  {height | ∃ stage ∈ walk.stages angle length word, stage.saved.size = height}

theorem heights_nil (angle length : α) (walk : Walk α) :
    walk.heights angle length [] = {walk.saved.size} := by
  ext height
  simp [heights, stages, eq_comm]

theorem heights_cons (angle length : α) (walk : Walk α) (symbol : Symbol) (rest : List Symbol) :
    walk.heights angle length (symbol :: rest) =
      insert walk.saved.size ((walk.step angle length symbol).heights angle length rest) := by
  ext height
  simp [heights, stages_cons, eq_comm]

theorem isGreatest_heights (angle length : α) (walk : Walk α) (word : List Symbol) :
    IsGreatest (walk.heights angle length word) (peak (fun _ => 0) walk.saved.size word) := by
  induction word generalizing walk with
  | nil =>
      rw [heights_nil]
      exact isGreatest_singleton
  | cons symbol rest ih =>
      have further := ih (walk.step angle length symbol)
      rw [size_step] at further
      rw [heights_cons, peak_cons]
      exact further.insert walk.saved.size

/-! ### Returns -/

/-- A symbol that closes a bracket returns or is passed over; one that opens a bracket adds to the
stack what a return takes from it. -/
theorem tally_step (angle length : α) (walk : Walk α) (symbol : Symbol) :
    let next := walk.step angle length symbol
    let returned := if walk.returnsAt symbol then 1 else 0
    (if symbol = .push then 1 else 0) + walk.saved.size = returned + next.saved.size ∧
      (if symbol = .pop then 1 else 0) + walk.underflows = returned + next.underflows := by
  cases symbol with
  | pop =>
      cases saved : walk.saved.poses with
      | nil =>
          rw [step, restore_of_nil saved]
          simp [returnsAt, PoseStack.pop?, PoseStack.size, saved, Nat.add_comm]
      | cons pose rest =>
          rw [step, restore_of_cons saved]
          simp [returnsAt, PoseStack.pop?, PoseStack.size, saved, Nat.add_comm]
  | _ => simp [step, draw, hop, returnsAt, PoseStack.push, PoseStack.size, Nat.add_comm]

theorem tally_along (angle length : α) (walk : Walk α) (word : List Symbol) :
    word.count .push + walk.saved.size =
        walk.returns angle length word + (walk.along angle length word).saved.size ∧
      word.count .pop + walk.underflows =
        walk.returns angle length word + (walk.along angle length word).underflows := by
  induction word generalizing walk with
  | nil => exact ⟨rfl, rfl⟩
  | cons symbol rest ih =>
      obtain ⟨opened, closed⟩ := walk.tally_step angle length symbol
      obtain ⟨openedLater, closedLater⟩ := ih (walk.step angle length symbol)
      rw [List.count_cons, List.count_cons, returns_cons, along_cons]
      simp only [beq_iff_eq]
      omega

end Walk

variable [Add α] [Sub α] [Mul α] [Zero α] [Trigonometry α]

/-- The deepest nesting that is counted for a text is the greatest height of the stack while it is
walked. What remains of its brackets when adjacent pairs are deleted until there is none is a closing
bracket for each one that was passed over and an opening one for each pose that was left behind; each
other bracket belongs to one return to a saved pose. -/
theorem stack_follows_brackets (text : String) (angle length : α) (start : Point α) :
    let walk := Walk.start start
    let drawing := interpret text angle length start
    let returns := walk.returns angle length (symbols text)
    IsGreatest (walk.heights angle length (symbols text)) (countMoves text).maxDepth ∧
      (∀ word, (Relation.ReflTransGen Cancels (brackets text) word ∧ ¬ ∃ next, Cancels word next) ↔
        word = List.replicate drawing.underflows ']' ++ List.replicate drawing.leftover '[') ∧
      text.toList.count '[' = returns + drawing.leftover ∧
      text.toList.count ']' = returns + drawing.underflows := by
  intro walk drawing returns
  have loose : (⟨drawing.underflows, drawing.leftover⟩ : Loose) = ({} : Loose).along text.toList :=
    walk.loose_along angle length text.toList
  have tally := walk.tally_along angle length (symbols text)
  rw [count_symbols, count_symbols] at tally
  refine ⟨?_, ?_, tally.1, tally.2⟩
  · rw [countMoves_maxDepth]
    exact walk.isGreatest_heights angle length (symbols text)
  · intro word
    rw [reduced_brackets_iff, ← loose]
    rfl

end Frond
