import Mathlib
import Frond.Proofs.Number.Characters
import Frond.Proofs.Svg.PathReading

/-!
The characters of paths and view boxes: those of their numbers, blanks, and the letters of the two
commands. A character with a meaning in markup is not among them.
-/

namespace Frond.Svg

def isPathChar (c : Char) : Bool := isNumeralChar c || " ML".toList.contains c

theorem mem_intercalate {between : String} {texts : List String} {c : Char}
    (member : c ∈ (between.intercalate texts).toList) :
    c ∈ between.toList ∨ ∃ text ∈ texts, c ∈ text.toList := by
  induction texts with
  | nil => simp at member
  | cons text rest ih =>
      cases rest with
      | nil => exact .inr ⟨text, List.mem_cons_self, by simpa using member⟩
      | cons next rest =>
          simp only [String.intercalate_cons_cons, String.toList_append, List.mem_append] at member
          rcases member with (first | joint) | later
          · exact .inr ⟨text, List.mem_cons_self, first⟩
          · exact .inl joint
          · rcases ih later with joint | ⟨other, listed, inside⟩
            · exact .inl joint
            · exact .inr ⟨other, List.mem_cons_of_mem _ listed, inside⟩

theorem numeralText_chars (value : Float) :
    ∀ c ∈ (numeralText value).toList, isPathChar c = true := by
  intro c member
  rw [numeralText, String.toList_ofList] at member
  rw [isPathChar, numeral_chars value c member, Bool.true_or]

theorem append_chars {left right : String} (first : ∀ c ∈ left.toList, isPathChar c = true)
    (second : ∀ c ∈ right.toList, isPathChar c = true) :
    ∀ c ∈ (left ++ right).toList, isPathChar c = true := by
  rw [String.toList_append]
  exact List.forall_mem_append.mpr ⟨first, second⟩

theorem pointText_chars (p : Point Float) :
    ∀ c ∈ (pointText p).toList, isPathChar c = true := by
  have blank : " ".toList.all isPathChar = true := by decide
  exact append_chars (append_chars (numeralText_chars p.x) (List.all_eq_true.mp blank))
    (numeralText_chars p.y)

theorem PenCommand.text_chars (command : PenCommand Float) :
    ∀ c ∈ command.text.toList, isPathChar c = true := by
  cases command with
  | moveTo p =>
      have letter : "M".toList.all isPathChar = true := by decide
      exact append_chars (List.all_eq_true.mp letter) (pointText_chars p)
  | lineTo p =>
      have letter : "L".toList.all isPathChar = true := by decide
      exact append_chars (List.all_eq_true.mp letter) (pointText_chars p)

/-- Texts of such characters that are joined by blanks hold no other ones. -/
theorem intercalate_chars {texts : List String}
    (known : ∀ text ∈ texts, ∀ c ∈ text.toList, isPathChar c = true) :
    ∀ c ∈ (" ".intercalate texts).toList, isPathChar c = true := by
  intro c member
  rcases mem_intercalate member with blank | ⟨text, listed, inside⟩
  · obtain rfl : c = ' ' := by simpa using blank
    rfl
  · exact known text listed c inside

theorem pathText_chars (segments : List (Segment Float)) :
    ∀ c ∈ (pathText segments).toList, isPathChar c = true := by
  apply intercalate_chars
  intro text listed
  obtain ⟨command, _, rfl⟩ := List.mem_map.mp listed
  exact command.text_chars

theorem viewBoxText_chars (box : Box Float) :
    ∀ c ∈ (viewBoxText box).toList, isPathChar c = true := by
  apply intercalate_chars
  intro text listed
  simp only [List.mem_cons, List.not_mem_nil, or_false] at listed
  rcases listed with rfl | rfl | rfl | rfl
  · exact numeralText_chars box.x
  · exact numeralText_chars box.y
  · exact numeralText_chars box.width
  · exact numeralText_chars box.height

theorem not_mem_of_chars {text : String} {c : Char} (foreign : isPathChar c = false)
    (known : ∀ c ∈ text.toList, isPathChar c = true) : c ∉ text.toList := by
  intro member
  rw [known c member] at foreign
  cases foreign

end Frond.Svg
