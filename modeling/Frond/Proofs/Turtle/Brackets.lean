import Frond.Turtle.Walk

/-!
Matching brackets. A text is balanced by what its prefixes count; on its symbols this is a
running depth that never falls below zero, and for the turtle a stack that never runs empty.
-/

namespace Frond

/-- Every closing bracket of a text closes one before it, and every opening one is closed. -/
structure Balanced (text : String) : Prop where
  opened : ∀ front, front <+: text.toList → front.count ']' ≤ front.count '['
  closed : text.toList.count ']' = text.toList.count '['

/-- The depth after a symbol, if the symbol closes nothing that is not open. -/
def Symbol.nest (symbol : Symbol) (depth : Nat) : Option Nat :=
  match symbol, depth with
  | .push, depth => some (depth + 1)
  | .pop, 0 => none
  | .pop, depth + 1 => some depth
  | _, depth => some depth

theorem Symbol.nest_of_ne {symbol : Symbol} (depth : Nat) (opens : symbol ≠ .push)
    (closes : symbol ≠ .pop) : symbol.nest depth = some depth := by
  cases symbol <;> first | rfl | contradiction

theorem Symbol.nest_add {symbol : Symbol} {depth next : Nat} (base : Nat)
    (nested : symbol.nest depth = some next) :
    symbol.nest (base + depth) = some (base + next) := by
  cases symbol with
  | pop =>
      cases depth with
      | zero => cases nested
      | succ depth => cases nested; rfl
  | _ => cases nested; rfl

/-- The depth that a word ends at, if its closing brackets all find an open one. -/
def nesting (depth : Nat) (word : List Symbol) : Option Nat :=
  word.foldlM (fun depth symbol => symbol.nest depth) depth

@[simp] theorem nesting_nil (depth : Nat) : nesting depth [] = some depth := rfl

@[simp] theorem nesting_cons (depth : Nat) (symbol : Symbol) (rest : List Symbol) :
    nesting depth (symbol :: rest) = (symbol.nest depth).bind fun next => nesting next rest := by
  rw [nesting, List.foldlM_cons]
  rfl

theorem nesting_append (depth : Nat) (left right : List Symbol) :
    nesting depth (left ++ right) = (nesting depth left).bind fun next => nesting next right := by
  rw [nesting, List.foldlM_append]
  rfl

/-- A word does not look below the depth that it starts at. -/
theorem nesting_add {depth final : Nat} {word : List Symbol} (base : Nat)
    (nested : nesting depth word = some final) :
    nesting (base + depth) word = some (base + final) := by
  induction word generalizing depth with
  | nil => cases nested; rfl
  | cons symbol rest ih =>
      rw [nesting_cons, Option.bind_eq_some_iff] at nested
      obtain ⟨next, first, further⟩ := nested
      rw [nesting_cons, Symbol.nest_add base first]
      exact ih further

theorem nesting_of_closed {word : List Symbol} (closed : nesting 0 word = some 0) (depth : Nat) :
    nesting depth word = some depth := nesting_add depth closed

/-! ### Prefixes of characters -/

/-- What `Balanced` asks of characters, when some brackets are open before them and some are
left open after them. -/
def Spans (depth final : Nat) (chars : List Char) : Prop :=
  (∀ front, front <+: chars → front.count ']' ≤ depth + front.count '[') ∧
    final + chars.count ']' = depth + chars.count '['

/-- One character more in front is one step of the depth. -/
theorem spans_cons {depth final : Nat} {c : Char} (next : Nat) (rest : List Char)
    (shift : ∀ word, depth + (c :: word).count '[' + word.count ']' =
      next + word.count '[' + (c :: word).count ']') :
    Spans depth final (c :: rest) ↔ Spans next final rest := by
  constructor
  · rintro ⟨opened, closed⟩
    refine ⟨fun front ahead => ?_, ?_⟩
    · have below := opened (c :: front) (List.prefix_cons_inj c |>.mpr ahead)
      have moved := shift front
      omega
    · have moved := shift rest
      omega
  · rintro ⟨opened, closed⟩
    refine ⟨fun front ahead => ?_, ?_⟩
    · rcases List.prefix_cons_iff.mp ahead with rfl | ⟨tail, rfl, inside⟩
      · exact Nat.zero_le _
      · have below := opened tail inside
        have moved := shift tail
        omega
    · have moved := shift rest
      omega

theorem not_spans_close {final : Nat} (rest : List Char) : ¬ Spans 0 final (']' :: rest) := by
  intro spans
  have below := spans.1 [']'] ⟨rest, rfl⟩
  exact absurd below (by decide)

theorem nesting_filterMap {depth final : Nat} {chars : List Char} :
    nesting depth (chars.filterMap Symbol.ofChar?) = some final ↔ Spans depth final chars := by
  induction chars generalizing depth with
  | nil => simp [Spans, eq_comm]
  | cons c rest ih =>
      by_cases opens : c = '['
      · subst opens
        rw [spans_cons (depth + 1) rest (by intro word; simp; omega), ← ih]
        rfl
      by_cases closes : c = ']'
      · subst closes
        cases depth with
        | zero => exact iff_of_false (fun nested => by cases nested) (not_spans_close rest)
        | succ depth =>
            rw [spans_cons depth rest (by intro word; simp; omega), ← ih]
            rfl
      rw [spans_cons depth rest (by intro word; simp [opens, closes]), ← ih]
      cases known : Symbol.ofChar? c with
      | none => rw [List.filterMap_cons_none known]
      | some symbol =>
          have named := Symbol.toChar_of_ofChar?_eq_some known
          have stays : symbol.nest depth = some depth := by
            apply Symbol.nest_of_ne
            · rintro rfl; exact opens named.symm
            · rintro rfl; exact closes named.symm
          rw [List.filterMap_cons_some known, nesting_cons, stays]
          rfl

theorem balanced_iff {text : String} : Balanced text ↔ nesting 0 (symbols text) = some 0 := by
  rw [symbols, nesting_filterMap, Spans]
  simp only [Nat.zero_add]
  exact ⟨fun balanced => ⟨balanced.opened, balanced.closed⟩, fun spans => ⟨spans.1, spans.2⟩⟩

instance (text : String) : Decidable (Balanced text) := decidable_of_iff _ balanced_iff.symm

example : Balanced "F[+A[B]]f-X" ∧ ¬ Balanced "][" := by decide

/-! ### The stack of a walk -/

variable {α : Type}

/-- A drawing whose brackets all found each other. -/
structure Drawing.Matched (drawing : Drawing α) : Prop where
  underflows : drawing.underflows = 0
  leftover : drawing.leftover = 0

/-- Such a drawing logs neither a bracket that was passed over nor a pose left behind. -/
theorem Drawing.Matched.events_eq {drawing : Drawing α} (matched : drawing.Matched) :
    drawing.events = [interpretedEvent drawing.segments.length] := by
  simp [events, matched.underflows, matched.leftover]

variable [Add α] [Sub α] [Mul α] [Trigonometry α]

namespace Walk

theorem step_saved (angle length : α) {walk : Walk α} {symbol : Symbol} {next : Nat}
    (nested : symbol.nest walk.saved.size = some next) :
    (walk.step angle length symbol).saved.size = next ∧
      (walk.step angle length symbol).underflows = walk.underflows := by
  cases symbol with
  | pop =>
      cases held : walk.saved.poses with
      | nil => simp [Symbol.nest, PoseStack.size, held] at nested
      | cons pose rest =>
          simp only [Symbol.nest, PoseStack.size, held, List.length_cons] at nested
          simp only [step, restore, PoseStack.pop?, held]
          exact ⟨Option.some.inj nested, trivial⟩
  | _ => cases nested; exact ⟨rfl, rfl⟩

theorem along_saved (angle length : α) {walk : Walk α} {word : List Symbol} {final : Nat}
    (nested : nesting walk.saved.size word = some final) :
    (walk.along angle length word).saved.size = final ∧
      (walk.along angle length word).underflows = walk.underflows := by
  induction word generalizing walk with
  | nil => cases nested; exact ⟨rfl, rfl⟩
  | cons symbol rest ih =>
      rw [nesting_cons, Option.bind_eq_some_iff] at nested
      obtain ⟨next, first, further⟩ := nested
      obtain ⟨size, underflows⟩ := step_saved angle length first
      rw [← size] at further
      have walked := ih further
      rw [underflows] at walked
      exact walked

end Walk

theorem Balanced.matched [Zero α] {text : String} (balanced : Balanced text) (angle length : α)
    (start : Point α) : (interpret text angle length start).Matched := by
  have nested : nesting (Walk.start start).saved.size (symbols text) = some 0 :=
    balanced_iff.mp balanced
  have walked := Walk.along_saved angle length nested
  exact ⟨walked.2, walked.1⟩

end Frond
