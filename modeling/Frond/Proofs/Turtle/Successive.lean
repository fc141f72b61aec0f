import Frond.Proofs.Turtle.StackHeights
import Frond.Proofs.Turtle.Strokes

/-!
Strokes that follow each other. Between two of them a turtle that neither hops nor returns to a saved
pose stays at its point, whatever else it meets, so that the second segment starts where the first one
ends.
-/

namespace Frond

variable {α : Type}

/-! ### Turtles that stay at their point -/

namespace Walk

variable [Add α] [Sub α] [Mul α] [Trigonometry α]

theorem segments_step (angle length : α) (walk : Walk α) {symbol : Symbol}
    (silent : symbol.draws = false) : (walk.step angle length symbol).segments = walk.segments := by
  cases symbol with
  | a | b | f => cases silent
  | pop =>
      cases saved : walk.saved.poses with
      | nil => rw [step, restore_of_nil saved]
      | cons pose rest => rw [step, restore_of_cons saved]
  | _ => rfl

theorem position_step (angle length : α) {walk : Walk α} {symbol : Symbol}
    (silent : symbol.draws = false) (grounded : symbol ≠ .move)
    (onward : walk.returnsAt symbol = false) :
    (walk.step angle length symbol).pose.position = walk.pose.position := by
  cases symbol with
  | a | b | f => cases silent
  | move => exact absurd rfl grounded
  | pop =>
      cases saved : walk.saved.poses with
      | nil => rw [step, restore_of_nil saved]
      | cons pose rest => simp [returnsAt, PoseStack.pop?, saved] at onward
  | _ => rfl

theorem position_along (angle length : α) {walk : Walk α} {word : List Symbol}
    (silent : ∀ symbol ∈ word, symbol.draws = false) (grounded : .move ∉ word)
    (onward : walk.returns angle length word = 0) :
    (walk.along angle length word).pose.position = walk.pose.position := by
  induction word generalizing walk with
  | nil => rfl
  | cons symbol rest ih =>
      rw [List.forall_mem_cons] at silent
      rw [List.mem_cons, not_or] at grounded
      rw [returns_cons, Nat.add_eq_zero_iff] at onward
      have here : walk.returnsAt symbol = false := by simpa using onward.2
      rw [along_cons, ih silent.2 grounded.2 onward.1,
        position_step angle length silent.1 (Ne.symm grounded.1) here]

end Walk

/-! ### Two strokes with none between them -/

/-- A text cut at two strokes that have none between them. -/
structure Successive (text before : String) (first : Char) (between : String) (second : Char)
    (after : String) : Prop where
  whole : text = before ++ String.singleton first ++ between ++ String.singleton second ++ after
  first : isStroke first = true
  second : isStroke second = true
  silent : strokes between = 0

theorem exists_split_of_lt_countP {p : Char → Bool} {chars : List Char} {number : Nat}
    (inside : number < chars.countP p) :
    ∃ before c after, chars = before ++ c :: after ∧ p c = true ∧ before.countP p = number := by
  induction chars generalizing number with
  | nil => cases inside
  | cons c rest ih =>
      cases holds : p c with
      | false =>
          have skipped (chars : List Char) : (c :: chars).countP p = chars.countP p :=
            List.countP_cons_of_neg (by simp [holds])
          rw [skipped] at inside
          obtain ⟨before, d, after, rfl, found, count⟩ := ih inside
          exact ⟨c :: before, d, after, rfl, found, (skipped before).trans count⟩
      | true =>
          have counted (chars : List Char) : (c :: chars).countP p = chars.countP p + 1 :=
            List.countP_cons_of_pos holds
          cases number with
          | zero => exact ⟨[], c, rest, rfl, holds, rfl⟩
          | succ number =>
              rw [counted, Nat.add_lt_add_iff_right] at inside
              obtain ⟨before, d, after, rfl, found, count⟩ := ih inside
              exact ⟨c :: before, d, after, rfl, found, by rw [counted, count]⟩

/-- Each stroke of a text but the last one is followed by another. -/
theorem exists_successive {text : String} {number : Nat} (inside : number + 1 < strokes text) :
    ∃ before first between second after, Successive text before first between second after ∧
      strokes before = number := by
  obtain ⟨before, first, rest, cut, begins, count⟩ :=
    exists_split_of_lt_countP (Nat.lt_of_succ_lt inside)
  have more : 0 < rest.countP isStroke := by
    rw [strokes, cut, List.countP_append, count, List.countP_cons_of_pos begins] at inside
    omega
  obtain ⟨between, second, after, rfl, ends, silent⟩ := exists_split_of_lt_countP more
  refine ⟨.ofList before, first, .ofList between, second, .ofList after, ⟨?_, begins, ends, ?_⟩, ?_⟩
  · rw [← String.toList_inj, cut]
    simp
  · rw [strokes, String.toList_ofList, silent]
  · rw [strokes, String.toList_ofList, count]

variable [Add α] [Sub α] [Mul α] [Zero α] [Trigonometry α]

/-- Whether a turtle that has walked along one text leaves its point in another, other than by a stroke:
over a hop, or back to a saved pose. -/
def Departs (angle length : α) (start : Point α) (before between : String) : Prop :=
  'f' ∈ between.toList ∨
    0 < ((Walk.start start).along angle length (symbols before)).returns angle length
      (symbols between)

theorem position_of_not_departs {angle length : α} {start : Point α} {before between : String}
    (silent : strokes between = 0) (stays : ¬Departs angle length start before between) :
    ((Walk.start start).along angle length (symbols (before ++ between))).pose.position =
      ((Walk.start start).along angle length (symbols before)).pose.position := by
  rw [Departs, not_or, Nat.pos_iff_ne_zero, not_not] at stays
  obtain ⟨grounded, onward⟩ := stays
  rw [← countP_draws_symbols, List.countP_eq_zero] at silent
  rw [symbols_append, Walk.along_append]
  apply Walk.position_along angle length _ _ onward
  · intro symbol member
    exact Bool.eq_false_iff.mpr (silent symbol member)
  · rw [← List.count_eq_zero, count_symbols]
    exact List.count_eq_zero.mpr grounded

namespace Successive

variable {text before : String} {first : Char} {between : String} {second : Char} {after : String}

/-- The first segment ends where its stroke leads to, and the second one starts where the text up to its
stroke leads to. -/
theorem segments (successive : Successive text before first between second after) (angle length : α)
    (start : Point α) :
    let tip := before ++ String.singleton first
    let reached (text : String) := (Walk.start start).along angle length (symbols text)
    ∃ one two, (interpret text angle length start).segments[strokes before]? = some one ∧
      (interpret text angle length start).segments[strokes before + 1]? = some two ∧
      one.stop = (reached tip).pose.position ∧
      two.start = (reached (tip ++ between)).pose.position := by
  intro tip reached
  obtain ⟨one, knownFirst, drawsFirst⟩ := isStroke_iff.mp successive.first
  obtain ⟨two, knownSecond, drawsSecond⟩ := isStroke_iff.mp successive.second
  have firstAlone : symbols (String.singleton first) = [one] := by simp [symbols, knownFirst]
  have secondAlone : symbols (String.singleton second) = [two] := by simp [symbols, knownSecond]
  have whole : symbols text = symbols (tip ++ between) ++ two :: symbols after := by
    rw [successive.whole, symbols_append, symbols_append, secondAlone, List.append_assoc]
    rfl
  have parted : symbols text =
      symbols before ++ one :: (symbols between ++ two :: symbols after) := by
    rw [whole, symbols_append, symbols_append, firstAlone, List.append_assoc, List.append_assoc]
    rfl
  have place : strokes (tip ++ between) = strokes before + 1 := by
    have single : strokes (String.singleton first) = 1 := by
      simp [strokes, successive.first]
    rw [strokes_append, strokes_append, single, successive.silent]
  have drawn : reached tip = (reached before).draw length := by
    simp only [reached, tip, symbols_append, firstAlone, Walk.along_append]
    exact Walk.step_of_draws angle length (reached before) drawsFirst
  have here := Walk.getElem?_along_draws angle length (Walk.start start) (symbols before)
    (symbols between ++ two :: symbols after) drawsFirst
  have next := Walk.getElem?_along_draws angle length (Walk.start start) (symbols (tip ++ between))
    (symbols after) drawsSecond
  simp only [Walk.size_along_start, ← parted] at here
  simp only [Walk.size_along_start, place, ← whole] at next
  exact ⟨_, _, here, next, by rw [drawn]; rfl, rfl⟩

theorem start_eq_stop (successive : Successive text before first between second after)
    {angle length : α} {start : Point α}
    (stays : ¬Departs angle length start (before ++ String.singleton first) between) :
    ∃ one two, (interpret text angle length start).segments[strokes before]? = some one ∧
      (interpret text angle length start).segments[strokes before + 1]? = some two ∧
      two.start = one.stop := by
  obtain ⟨one, two, here, next, stop, start⟩ := successive.segments angle length start
  refine ⟨one, two, here, next, ?_⟩
  rw [start, stop, position_of_not_departs successive.silent stays]

end Successive

end Frond
