import Mathlib
import Frond.Proofs.Expansion.Deletion

/-!
When growth fails. Sizes are added up replacement by replacement and the count is given up as soon
as a sum is too large, which comes to the same as measuring the text of the whole generation. So
growth fails exactly if one of the texts on the way is too large to be counted.
-/

namespace Frond

theorem foldlM_addSize?_eq (size : Symbol → Nat) {total : Nat} (counted : total < sizeLimit)
    (word : List Symbol) :
    word.foldlM (fun total symbol => addSize? total (size symbol)) total =
      if total + (word.map size).sum < sizeLimit then some (total + (word.map size).sum)
      else none := by
  induction word generalizing total with
  | nil => simp [counted]
  | cons symbol rest ih =>
      rw [List.foldlM_cons, List.map_cons, List.sum_cons, ← Nat.add_assoc]
      by_cases fits : total + size symbol < sizeLimit
      · rw [addSize?, if_pos fits]
        exact ih fits
      · rw [addSize?, if_neg fits, if_neg (by omega)]
        rfl

namespace Rules

/-- The next generation of a text, of whatever size. -/
def unchecked (rules : Rules) (text : String) : String := rules.replaceAll (symbols text)

theorem utf8ByteSize_replaceAll (rules : Rules) (word : List Symbol) :
    (rules.replaceAll word).utf8ByteSize =
      (word.map fun symbol => (rules.replacement symbol).utf8ByteSize).sum := by
  induction word with
  | nil => rfl
  | cons symbol rest ih =>
      rw [replaceAll_cons, String.utf8ByteSize_append, ih, List.map_cons, List.sum_cons]

theorem size?_eq (rules : Rules) (text : String) :
    rules.size? text =
      if (rules.unchecked text).utf8ByteSize < sizeLimit then
        some (rules.unchecked text).utf8ByteSize
      else none := by
  have counted := foldlM_addSize?_eq (fun symbol => (rules.replacement symbol).utf8ByteSize)
    (by decide : 0 < sizeLimit) (symbols text)
  rw [Nat.zero_add, ← utf8ByteSize_replaceAll] at counted
  exact counted

theorem generation_eq (rules : Rules) (text : String) :
    rules.generation text =
      if (rules.unchecked text).utf8ByteSize < sizeLimit then .ok (rules.unchecked text)
      else .error .overflow := by
  rw [generation, size?_eq]
  by_cases fits : (rules.unchecked text).utf8ByteSize < sizeLimit
  · rw [if_pos fits, if_pos fits]
    rfl
  · rw [if_neg fits, if_neg fits]

/-- Growth fails exactly if the text of some generation on the way cannot be counted. -/
theorem generations_eq_error_iff {rules : Rules} {count : Nat} {text : String} :
    (∃ failure, rules.generations count text = .error failure) ↔
      ∃ number, 1 ≤ number ∧ number ≤ count ∧
        sizeLimit ≤ (rules.unchecked^[number] text).utf8ByteSize := by
  induction count generalizing text with
  | zero =>
      constructor
      · rintro ⟨failure, ⟨⟩⟩
      · rintro ⟨number, positive, none, _⟩
        omega
  | succ count ih =>
      rw [generations, generation_eq]
      by_cases fits : (rules.unchecked text).utf8ByteSize < sizeLimit
      · rw [if_pos fits]
        refine (@ih (rules.unchecked text)).trans ?_
        constructor
        · rintro ⟨number, positive, within, large⟩
          exact ⟨number + 1, by omega, by omega, large⟩
        · rintro ⟨_ | _ | number, positive, within, large⟩
          · cases positive
          · exact absurd large (Nat.not_le.mpr fits)
          · exact ⟨number + 1, by omega, by omega, large⟩
      · rw [if_neg fits]
        exact iff_of_true ⟨_, rfl⟩ ⟨1, by omega, by omega, Nat.not_lt.mp fits⟩

end Rules

end Frond
