import Frond.Proofs.Turtle.Brackets

/-!
Walks that go on. Where a turtle goes does not depend on what it has drawn already, nor on the poses
that lie on its stack below those that its word returns to: both can be put away while the word is
walked and be taken up again at its end.
-/

namespace Frond

variable {α : Type}

namespace Walk

/-- The same walk, after segments that were drawn before it. -/
def behind (drawn : Array (Segment α)) (walk : Walk α) : Walk α :=
  { walk with segments := drawn ++ walk.segments }

/-- The same walk, on top of poses that were saved before it. -/
def above (base : List (Pose α)) (walk : Walk α) : Walk α :=
  { walk with saved := ⟨walk.saved.poses ++ base⟩ }

def blank (walk : Walk α) : Walk α := { walk with segments := #[] }

/-- What a walk leaves behind that ends here. -/
def drawing (walk : Walk α) : Drawing α :=
  { segments := walk.segments.toList
    final := walk.pose
    underflows := walk.underflows
    leftover := walk.saved.size }

theorem blank_behind (drawn : Array (Segment α)) (walk : Walk α) :
    walk.blank.behind drawn = { walk with segments := drawn } := by
  simp [blank, behind]

theorem blank_behind_segments (walk : Walk α) : walk.blank.behind walk.segments = walk :=
  walk.blank_behind walk.segments

theorem restore_of_nil {walk : Walk α} (saved : walk.saved.poses = []) :
    walk.restore = { walk with underflows := walk.underflows + 1 } := by
  rw [restore, PoseStack.pop?, saved]

theorem restore_of_cons {walk : Walk α} {pose : Pose α} {rest : List (Pose α)}
    (saved : walk.saved.poses = pose :: rest) :
    walk.restore = { walk with pose, saved := ⟨rest⟩ } := by
  rw [restore, PoseStack.pop?, saved]

variable [Add α] [Sub α] [Mul α] [Trigonometry α]

theorem along_cons (angle length : α) (walk : Walk α) (symbol : Symbol) (rest : List Symbol) :
    walk.along angle length (symbol :: rest) =
      (walk.step angle length symbol).along angle length rest := rfl

theorem along_append (angle length : α) (walk : Walk α) (left right : List Symbol) :
    walk.along angle length (left ++ right) =
      (walk.along angle length left).along angle length right := List.foldl_append

theorem step_behind (angle length : α) (drawn : Array (Segment α)) (walk : Walk α)
    (symbol : Symbol) :
    (walk.behind drawn).step angle length symbol =
      (walk.step angle length symbol).behind drawn := by
  cases symbol with
  | a | b | f => simp only [step, draw, behind, Array.push_append]
  | pop =>
      cases saved : walk.saved.poses with
      | nil => simp only [step, restore, behind, PoseStack.pop?, saved]
      | cons pose rest => simp only [step, restore, behind, PoseStack.pop?, saved]
  | _ => rfl

theorem along_behind (angle length : α) (drawn : Array (Segment α)) (walk : Walk α)
    (word : List Symbol) :
    (walk.behind drawn).along angle length word =
      (walk.along angle length word).behind drawn :=
  List.foldl_hom (behind drawn) (step_behind angle length drawn)

/-- A walk adds to its segments what it would have drawn with none before. -/
theorem along_eq_behind (angle length : α) (walk : Walk α) (word : List Symbol) :
    walk.along angle length word =
      (walk.blank.along angle length word).behind walk.segments := by
  rw [← along_behind, blank_behind_segments]

theorem segments_prefix_along (angle length : α) (walk : Walk α) (word : List Symbol) :
    walk.segments.toList <+: (walk.along angle length word).segments.toList := by
  rw [along_eq_behind, behind, Array.toList_append]
  exact List.prefix_append ..

/-- A symbol that closes nothing below a stack is the same step with more below the stack. -/
theorem step_above (angle length : α) (base : List (Pose α)) {walk : Walk α} {symbol : Symbol}
    {next : Nat} (nested : symbol.nest walk.saved.size = some next) :
    (walk.above base).step angle length symbol =
      (walk.step angle length symbol).above base := by
  cases symbol with
  | pop =>
      cases saved : walk.saved.poses with
      | nil => simp [Symbol.nest, PoseStack.size, saved] at nested
      | cons pose rest =>
          simp only [step, restore, above, PoseStack.pop?, saved, List.cons_append]
  | _ => rfl

theorem along_above (angle length : α) (base : List (Pose α)) {walk : Walk α}
    {word : List Symbol} {final : Nat} (nested : nesting walk.saved.size word = some final) :
    (walk.above base).along angle length word =
      (walk.along angle length word).above base := by
  induction word generalizing walk with
  | nil => rfl
  | cons symbol rest ih =>
      rw [nesting_cons, Option.bind_eq_some_iff] at nested
      obtain ⟨next, first, further⟩ := nested
      -- The rest is nested at the depth that the step leaves on the upper stack.
      have size := (step_saved angle length first).1
      rw [← size] at further
      rw [along_cons, step_above angle length base first, ih further, along_cons]

end Walk

variable [Add α] [Sub α] [Mul α] [Zero α] [Trigonometry α]

theorem interpret_eq_drawing (text : String) (angle length : α) (start : Point α) :
    interpret text angle length start =
      ((Walk.start start).along angle length (symbols text)).drawing := rfl

theorem interpret_append (before after : String) (angle length : α) (start : Point α) :
    interpret (before ++ after) angle length start =
      (((Walk.start start).along angle length (symbols before)).along angle length
        (symbols after)).drawing := by
  rw [interpret_eq_drawing, symbols_append, Walk.along_append]

end Frond
