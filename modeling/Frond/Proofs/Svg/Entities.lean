import Mathlib
import Frond.Svg.Markup

/-!
Entities read back. A reader goes along a text from left to right and puts a character in the place
of each of the five entities. What was written for a text reads as that text, and of the five
characters none is left in it but the ampersands that open an entity.
-/

namespace Frond.Svg

/-- The characters that are not written as themselves. -/
def isSpecial (c : Char) : Bool := "&<>\"\x27".toList.contains c

theorem entity_of_not_special {c : Char} (plain : isSpecial c = false) : entity c = [c] := by
  simp only [isSpecial, String.reduceToList, List.contains_eq_mem, List.mem_cons, List.not_mem_nil,
    or_false, decide_eq_false_iff_not, not_or] at plain
  obtain ⟨amp, lt, gt, quot, apos⟩ := plain
  rw [entity, if_neg amp, if_neg lt, if_neg gt, if_neg quot, if_neg apos]

theorem escape_of_not_special {text : String} (plain : ∀ c ∈ text.toList, isSpecial c = false) :
    escape text = text := by
  have kept : escapeChars text.toList = text.toList := by
    rw [escapeChars]
    calc text.toList.flatMap entity
        = text.toList.flatMap fun c => [c] :=
          List.flatMap_congr fun c member => entity_of_not_special (plain c member)
      _ = text.toList := List.flatMap_singleton' _
  rw [escape, kept, String.ofList_toList]

def unescapeChars : List Char → List Char
  | [] => []
  | '&' :: 'a' :: 'm' :: 'p' :: ';' :: rest => '&' :: unescapeChars rest
  | '&' :: 'l' :: 't' :: ';' :: rest => '<' :: unescapeChars rest
  | '&' :: 'g' :: 't' :: ';' :: rest => '>' :: unescapeChars rest
  | '&' :: 'q' :: 'u' :: 'o' :: 't' :: ';' :: rest => '"' :: unescapeChars rest
  | '&' :: 'a' :: 'p' :: 'o' :: 's' :: ';' :: rest => '\x27' :: unescapeChars rest
  | c :: rest => c :: unescapeChars rest

def unescape (text : String) : String := String.ofList (unescapeChars text.toList)

theorem unescapeChars_cons {c : Char} (plain : c ≠ '&') (rest : List Char) :
    unescapeChars (c :: rest) = c :: unescapeChars rest := by
  rw [unescapeChars.eq_def]
  split <;> simp_all

theorem unescapeChars_entity (c : Char) (rest : List Char) :
    unescapeChars (entity c ++ rest) = c :: unescapeChars rest := by
  unfold entity
  split_ifs with amp lt gt quot apos
  · subst amp; simp [unescapeChars]
  · subst lt; simp [unescapeChars]
  · subst gt; simp [unescapeChars]
  · subst quot; simp [unescapeChars]
  · subst apos; simp [unescapeChars]
  · exact unescapeChars_cons amp rest

theorem mem_entity {c d : Char} (member : c ∈ entity d) : isSpecial c = false ∨ c = '&' := by
  have written (text : String) (known : text.toList.all fun c => !isSpecial c || c = '&')
      (inside : c ∈ text.toList) : isSpecial c = false ∨ c = '&' := by
    simpa using List.all_eq_true.mp known c inside
  unfold entity at member
  split_ifs at member with amp lt gt quot apos
  · exact written "&amp;" (by decide) member
  · exact written "&lt;" (by decide) member
  · exact written "&gt;" (by decide) member
  · exact written "&quot;" (by decide) member
  · exact written "&apos;" (by decide) member
  · obtain rfl := List.mem_singleton.mp member
    left
    simp [isSpecial, amp, lt, gt, quot, apos]

/-- Of the five characters only the ampersand is ever written. -/
theorem not_mem_escape {c : Char} (special : isSpecial c = true) (other : c ≠ '&')
    (text : String) : c ∉ (escape text).toList := by
  intro member
  rw [escape, String.toList_ofList] at member
  obtain ⟨d, _, inside⟩ := List.mem_flatMap.mp member
  rcases mem_entity inside with plain | amp
  · rw [special] at plain
    cases plain
  · exact other amp

theorem length_unescapeChars_le (text : List Char) :
    (unescapeChars text).length ≤ text.length := by
  fun_induction unescapeChars text <;> simp only [List.length_cons, List.length_nil] <;> omega

/-- A name that ends in a semicolon does not reach into a text that has none. -/
theorem prefix_of_append {name text tail rest : List Char} (closed : ';' ∉ tail)
    (spelt : text ++ tail = name ++ ';' :: rest) : ∃ more, text = name ++ ';' :: more := by
  rcases List.append_eq_append_iff.mp spelt with ⟨extra, _, beyond⟩ | ⟨extra, whole, inside⟩
  · exact absurd (by simp [beyond]) closed
  · cases extra with
    | nil =>
        rw [List.nil_append] at inside
        exact absurd (by simp [← inside]) closed
    | cons c more =>
        obtain ⟨rfl, _⟩ := List.cons.inj inside
        exact ⟨more, whole⟩

theorem unescapeChars_of_not_mem {text : List Char} (opened : '&' ∉ text) :
    unescapeChars text = text := by
  induction text with
  | nil => rfl
  | cons c rest ih =>
      rw [List.mem_cons, not_or] at opened
      rw [unescapeChars_cons (Ne.symm opened.1), ih opened.2]

theorem unescapeChars_append {tail : List Char} (opened : '&' ∉ tail) (closed : ';' ∉ tail)
    (text : List Char) : unescapeChars (text ++ tail) = unescapeChars text ++ tail := by
  fun_induction unescapeChars text with
  | case1 => exact unescapeChars_of_not_mem opened
  | case2 rest ih | case3 rest ih | case4 rest ih | case5 rest ih | case6 rest ih =>
      simp only [List.cons_append, unescapeChars, ih]
  | case7 c rest amp lt gt quot apos ih =>
      -- An entity of the whole text would be one of the part before the tail already.
      have apart (name : List Char)
          (absent : ∀ more, c = '&' → rest = name ++ ';' :: more → False) (more : List Char)
          (first : c = '&') : rest ++ tail = name ++ ';' :: more → False := by
        intro spelt
        obtain ⟨shorter, whole⟩ := prefix_of_append closed spelt
        exact absent shorter first whole
      rw [List.cons_append, unescapeChars, ih, List.cons_append]
      · exact apart ['a', 'm', 'p'] amp
      · exact apart ['l', 't'] lt
      · exact apart ['g', 't'] gt
      · exact apart ['q', 'u', 'o', 't'] quot
      · exact apart ['a', 'p', 'o', 's'] apos

theorem unescapeChars_escapeChars (text : List Char) :
    unescapeChars (escapeChars text) = text := by
  induction text with
  | nil => rfl
  | cons c rest ih =>
      have first := unescapeChars_entity c (escapeChars rest)
      rw [ih] at first
      exact first

@[simp] theorem unescape_escape (text : String) : unescape (escape text) = text := by
  rw [unescape, escape, String.toList_ofList, unescapeChars_escapeChars, String.ofList_toList]

end Frond.Svg
