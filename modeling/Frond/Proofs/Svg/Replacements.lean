import Mathlib
import Frond.Proofs.Svg.Entities

/-!
Entities written in turns. One of the five characters after the other is replaced all over a text,
by which a later turn also runs over the entities of the earlier ones. The ampersand has the first
turn, and no entity has a character in it whose turn is still to come. So every character of the
text is replaced once or stays, and the text can be read back.
-/

namespace Frond.Svg

/-- Writes something in the place of a character, wherever it stands in a text. -/
def replaceAll (text : List Char) (turn : Char × String) : List Char :=
  text.flatMap fun c => if c = turn.1 then turn.2.toList else [c]

/-- The characters in the order in which they are replaced, and what is written for them. -/
def turns : List (Char × String) :=
  [('&', "&amp;"), ('<', "&lt;"), ('>', "&gt;"), ('"', "&quot;"), ('\x27', "&apos;")]

/-- The text after all the turns. -/
def replaceInTurns (text : String) : String :=
  String.ofList (turns.foldl replaceAll text.toList)

/-- Turns do the same to every character of a text, whatever stands around it. -/
theorem foldl_replaceAll (order : List (Char × String)) (text : List Char) :
    order.foldl replaceAll text = text.flatMap fun c => order.foldl replaceAll [c] := by
  induction order generalizing text with
  | nil => exact (List.flatMap_singleton' text).symm
  | cons turn order ih =>
      have single (c : Char) : (turn :: order).foldl replaceAll [c] =
          (replaceAll [c] turn).flatMap fun d => order.foldl replaceAll [d] := by
        rw [List.foldl_cons, ih]
      simp only [single]
      rw [List.foldl_cons, ih, ← List.flatMap_assoc]
      simp only [replaceAll, List.flatMap_singleton]

theorem foldl_replaceAll_turns (c : Char) : turns.foldl replaceAll [c] = entity c := by
  unfold entity
  split_ifs with amp lt gt quot apos
  · subst amp; decide
  · subst lt; decide
  · subst gt; decide
  · subst quot; decide
  · subst apos; decide
  · simp only [turns, List.foldl_cons, List.foldl_nil, replaceAll, List.flatMap_singleton,
      if_neg amp, if_neg lt, if_neg gt, if_neg quot, if_neg apos]

theorem replaceInTurns_eq_escape (text : String) : replaceInTurns text = escape text := by
  rw [replaceInTurns, foldl_replaceAll]
  simp only [foldl_replaceAll_turns]
  rfl

/-- An ampersand that is written is the first character that is written. -/
theorem entity_of_ampersand {c : Char} {before after : List Char}
    (written : entity c = before ++ '&' :: after) : before = [] ∧ isSpecial c = true := by
  have inner : '&' ∉ (entity c).tail := by
    unfold entity
    split_ifs <;> simp
  cases before with
  | cons d before =>
      rw [written, List.cons_append, List.tail_cons] at inner
      exact absurd (by simp) inner
  | nil =>
      refine ⟨rfl, ?_⟩
      by_contra plain
      rw [entity_of_not_special (Bool.eq_false_iff.mpr plain)] at written
      obtain rfl : c = '&' := (List.cons.inj written).1
      exact plain rfl

/-- Every ampersand that is written begins an entity. -/
theorem entity_at_ampersand {text before after : List Char}
    (written : escapeChars text = before ++ '&' :: after) :
    ∃ c, isSpecial c = true ∧ entity c <+: '&' :: after := by
  induction text generalizing before with
  | nil => simp at written
  | cons c rest ih =>
      have first : entity c ++ escapeChars rest = before ++ '&' :: after := written
      rcases List.append_eq_append_iff.mp first with ⟨extra, _, later⟩ | ⟨extra, inside, later⟩
      · exact ih later
      · cases extra with
        | nil =>
            have whole : escapeChars rest = [] ++ '&' :: after := later.symm
            exact ih whole
        | cons d extra =>
            obtain ⟨rfl, split⟩ := List.cons.inj later
            obtain ⟨rfl, special⟩ := entity_of_ampersand inside
            refine ⟨c, special, ?_⟩
            rw [inside, split]
            exact List.prefix_append ('&' :: extra) (escapeChars rest)

theorem length_entity_of_special {c : Char} (special : isSpecial c = true) :
    1 < (entity c).length := by
  unfold entity
  split_ifs with amp lt gt quot apos
  case neg => simp [isSpecial, amp, lt, gt, quot, apos] at special
  all_goals decide

theorem length_le_escapeChars (text : List Char) : text.length ≤ (escapeChars text).length := by
  have shorter := length_unescapeChars_le (escapeChars text)
  rwa [unescapeChars_escapeChars] at shorter

/-- A text with one of the five characters grows. -/
theorem not_special_of_escapeChars {text : List Char} (kept : escapeChars text = text) :
    ∀ c ∈ text, isSpecial c = false := by
  intro c member
  by_contra special
  rw [Bool.not_eq_false] at special
  obtain ⟨before, after, rfl⟩ := List.append_of_mem member
  have grown := length_entity_of_special special
  have first := length_le_escapeChars before
  have last := length_le_escapeChars after
  have same := congrArg List.length kept
  rw [escapeChars_append] at same
  change (escapeChars before ++ (entity c ++ escapeChars after)).length = _ at same
  simp only [List.length_append, List.length_cons] at same
  omega

theorem escape_eq_self_iff (text : String) :
    escape text = text ↔ ∀ c ∈ text.toList, isSpecial c = false := by
  refine ⟨fun kept => ?_, escape_of_not_special⟩
  have letters := congrArg String.toList kept
  rw [escape, String.toList_ofList] at letters
  exact not_special_of_escapeChars letters

theorem escape_injective : Function.Injective escape :=
  Function.LeftInverse.injective unescape_escape

theorem escape_append (text more : String) :
    escape (text ++ more) = escape text ++ escape more := by
  rw [escape, String.toList_append, escapeChars_append, String.ofList_append]
  rfl

/-- What is written for a text, in one pass or in turns, has no character of markup in it but
ampersands, each of which begins an entity. It reads back as the text, so no two texts are written
alike. Parts of a text are written on their own, and a text stays as it is just when it has none of
the five characters. -/
theorem escape_lossless (text : String) :
    replaceInTurns text = escape text ∧
    (∀ c ∈ "<>\"\x27".toList, c ∉ (escape text).toList) ∧
    (∀ before after, (escape text).toList = before ++ '&' :: after →
      ∃ c, isSpecial c = true ∧ entity c <+: '&' :: after) ∧
    unescape (escape text) = text ∧
    (∀ other, escape other = escape text → other = text) ∧
    (∀ more, escape (text ++ more) = escape text ++ escape more) ∧
    (escape text = text ↔ ∀ c ∈ text.toList, isSpecial c = false) := by
  refine ⟨replaceInTurns_eq_escape text, ?_, ?_, unescape_escape text, ?_, escape_append text,
    escape_eq_self_iff text⟩
  · intro c member
    simp only [String.reduceToList, List.mem_cons, List.not_mem_nil, or_false] at member
    rcases member with rfl | rfl | rfl | rfl <;> exact not_mem_escape rfl (by decide) text
  · intro before after written
    rw [escape, String.toList_ofList] at written
    exact entity_at_ampersand written
  · intro other same
    exact escape_injective same

/-- A text with an entity in it already. Its ampersand is written as the first of three entities. -/
theorem entity_written_lossless :
    let text := "x&lt;\"\x27"
    let written := "x&amp;lt;&quot;&apos;"
    escape text = written ∧ replaceInTurns text = written ∧ unescape written = text ∧
      (∃ c, isSpecial c = true ∧ entity c <+: '&' :: "amp;lt;&quot;&apos;".toList) ∧
      ¬∀ c ∈ text.toList, isSpecial c = false := by
  intro text written
  have value : escape text = written := by decide +kernel
  obtain ⟨turns, _, begun, read, _, _, kept⟩ := escape_lossless text
  rw [value] at turns begun read kept
  refine ⟨value, turns, read, begun ['x'] _ (by decide +kernel), ?_⟩
  rw [← kept]
  decide +kernel

end Frond.Svg
