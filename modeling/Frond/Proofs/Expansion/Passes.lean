import Frond.Proofs.Expansion.Overflow

/-!
A generation in two passes. The first pass adds up the sizes of the replacements and gives up when the
sum is too large; a buffer of the size that it finds is then reserved, and the second pass writes the
replacements into it character by character, counting the noise that it passes over. Neither pass sees
what the other one did, and still the buffer comes out full and was never enlarged.
-/

namespace Frond

/-- A store for a text, with room for so many bytes. -/
@[ext]
structure Buffer where
  room : Nat
  text : String := ""
  /-- The characters that were read and not written. -/
  dropped : Nat := 0

namespace Buffer

/-- Writes a text behind the one before it. A room that does not suffice is enlarged first. -/
def write (buffer : Buffer) (text : String) : Buffer :=
  { buffer with
    room := max buffer.room (buffer.text.utf8ByteSize + text.utf8ByteSize)
    text := buffer.text ++ text }

def drop (buffer : Buffer) : Buffer := { buffer with dropped := buffer.dropped + 1 }

end Buffer

namespace Rules

/-- What the second pass does with one character. -/
def fillStep (rules : Rules) (buffer : Buffer) (c : Char) : Buffer :=
  match Symbol.ofChar? c with
  | some symbol => buffer.write (rules.replacement symbol)
  | none => buffer.drop

/-- The second pass over a text, into a buffer with the given room. -/
def fill (rules : Rules) (room : Nat) (text : String) : Buffer :=
  text.toList.foldl rules.fillStep { room }

/-- The next generation of a text, counted first and then written. -/
def twoPasses (rules : Rules) (text : String) : Except Failure String :=
  match rules.size? text with
  | none => .error .overflow
  | some size => .ok (rules.fill size text).text

variable (rules : Rules)

theorem fillStep_of_symbol (buffer : Buffer) {c : Char} {symbol : Symbol}
    (known : Symbol.ofChar? c = some symbol) :
    rules.fillStep buffer c = buffer.write (rules.replacement symbol) := by
  simp only [fillStep, known]

theorem fillStep_of_noise (buffer : Buffer) {c : Char} (unknown : Symbol.ofChar? c = none) :
    rules.fillStep buffer c = buffer.drop := by
  simp only [fillStep, unknown]

theorem text_foldl_fillStep (buffer : Buffer) (chars : List Char) :
    (chars.foldl rules.fillStep buffer).text =
      buffer.text ++ rules.replaceAll (chars.filterMap Symbol.ofChar?) := by
  induction chars generalizing buffer with
  | nil => exact String.append_empty.symm
  | cons c rest ih =>
      rw [List.foldl_cons, ih]
      cases known : Symbol.ofChar? c with
      | none =>
          rw [List.filterMap_cons_none known, rules.fillStep_of_noise buffer known]
          rfl
      | some symbol =>
          rw [List.filterMap_cons_some known, rules.fillStep_of_symbol buffer known,
            replaceAll_cons, ← String.append_assoc]
          rfl

theorem dropped_foldl_fillStep (buffer : Buffer) (chars : List Char) :
    (chars.foldl rules.fillStep buffer).dropped =
      buffer.dropped + chars.countP fun c => (Symbol.ofChar? c).isNone := by
  induction chars generalizing buffer with
  | nil => rfl
  | cons c rest ih =>
      rw [List.foldl_cons, ih, List.countP_cons]
      cases known : Symbol.ofChar? c with
      | none =>
          rw [rules.fillStep_of_noise buffer known, Option.isNone_none, if_pos rfl]
          exact Nat.add_right_comm ..
      | some symbol =>
          rw [rules.fillStep_of_symbol buffer known]
          rfl

/-- The room that is needed in the end is the largest that was needed on the way. -/
theorem room_foldl_fillStep (buffer : Buffer) (fits : buffer.text.utf8ByteSize ≤ buffer.room)
    (chars : List Char) :
    (chars.foldl rules.fillStep buffer).room =
      max buffer.room (chars.foldl rules.fillStep buffer).text.utf8ByteSize := by
  induction chars generalizing buffer with
  | nil => exact (Nat.max_eq_left fits).symm
  | cons c rest ih =>
      rw [List.foldl_cons]
      cases known : Symbol.ofChar? c with
      | none =>
          rw [rules.fillStep_of_noise buffer known]
          exact ih buffer.drop fits
      | some symbol =>
          let next := buffer.write (rules.replacement symbol)
          have written : next.text.utf8ByteSize =
              buffer.text.utf8ByteSize + (rules.replacement symbol).utf8ByteSize :=
            String.utf8ByteSize_append
          have enlarged : next.room = max buffer.room next.text.utf8ByteSize := by
            rw [written]
            rfl
          have below : next.text.utf8ByteSize ≤
              (rest.foldl rules.fillStep next).text.utf8ByteSize := by
            rw [text_foldl_fillStep, String.utf8ByteSize_append]
            exact Nat.le_add_right ..
          have fitting : next.text.utf8ByteSize ≤ next.room := by
            rw [enlarged]
            exact Nat.le_max_right ..
          rw [rules.fillStep_of_symbol buffer known, ih next fitting, enlarged, Nat.max_assoc,
            Nat.max_eq_right below]

theorem fill_eq (room : Nat) (text : String) :
    rules.fill room text =
      { room := max room (rules.unchecked text).utf8ByteSize
        text := rules.unchecked text
        dropped := noise text } := by
  have written : (rules.fill room text).text = rules.unchecked text :=
    (rules.text_foldl_fillStep { room } text.toList).trans String.empty_append
  have dropped : (rules.fill room text).dropped = noise text :=
    (rules.dropped_foldl_fillStep { room } text.toList).trans (Nat.zero_add _)
  have enlarged : (rules.fill room text).room = max room (rules.fill room text).text.utf8ByteSize :=
    rules.room_foldl_fillStep { room } (Nat.zero_le room) text.toList
  rw [written] at enlarged
  exact Buffer.ext enlarged written dropped

/-- The plain rewrite of a text is the replacements of its symbols, one behind the other. If its size can
be counted in 64 bits, that is what the first pass finds and the plain rewrite is the next generation;
otherwise the first pass ends without a size and growth fails. A buffer of this size is full after the
second pass and was never enlarged, which holds of no smaller one. -/
theorem passes_agree (text : String) :
    let plain := String.join ((symbols text).map rules.replacement)
    let size := plain.utf8ByteSize
    (rules.size? text = if size < 2 ^ 64 then some size else none) ∧
      (rules.generation text = if size < 2 ^ 64 then .ok plain else .error .overflow) ∧
      rules.twoPasses text = rules.generation text ∧
      rules.fill size text = { room := size, text := plain, dropped := noise text } ∧
      ∀ room, (rules.fill room text).room = room ↔ size ≤ room := by
  intro plain size
  refine ⟨rules.size?_eq text, rules.generation_eq text, ?_, ?_, ?_⟩
  · rw [twoPasses, generation]
    cases rules.size? text with
    | none => rfl
    | some counted => exact congrArg Except.ok (congrArg Buffer.text (rules.fill_eq counted text))
  · have filled : rules.fill size text =
        { room := max size size, text := plain, dropped := noise text } := rules.fill_eq size text
    rw [filled, Nat.max_self]
  · intro room
    rw [fill_eq]
    exact max_eq_left_iff

end Rules

end Frond
