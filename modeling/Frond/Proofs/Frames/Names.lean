import Mathlib
import Frond.Proofs.Frames.Ends
import Frond.Proofs.Number.Digits

/-!
The names of the files for frames. Numbers of as many digits are ordered by the bytes of their
digits, and three digits are enough for all the frames of a drawing. So files that are sorted by
name show the drawing in the order in which it comes into being.
-/

namespace Frond

/-- The bytes of a text. -/
def bytes (text : String) : List UInt8 := text.toUTF8.data.toList

@[simp] theorem bytes_append (left right : String) :
    bytes (left ++ right) = bytes left ++ bytes right := by
  simp [bytes]

@[simp] theorem bytes_ofList (text : List Char) :
    bytes (String.ofList text) = text.flatMap String.utf8EncodeChar := by
  simp [bytes, List.utf8Encode]

section

variable {c d : Char}

theorem utf8EncodeChar_of_isDigit (digit : c.isDigit = true) :
    String.utf8EncodeChar c = [c.toUInt8] := by
  have small : c.utf8Size = 1 := by
    have bound := (toNat_of_isDigit digit).2
    rw [Char.utf8Size_eq_one_iff, UInt32.le_iff_toNat_le]
    exact (Nat.lt_succ_iff.mp bound).trans (by decide)
  exact String.utf8EncodeChar_eq_singleton small

theorem toUInt8_lt_of_isDigit (first : c.isDigit = true) (second : d.isDigit = true)
    (less : c.toNat < d.toNat) : c.toUInt8 < d.toUInt8 := by
  have here := (toNat_of_isDigit first).2
  have there := (toNat_of_isDigit second).2
  rw [UInt8.lt_iff_toNat_lt]
  change c.toNat % 256 < d.toNat % 256
  omega

end

/-- Of two rows of as many digits, that of the lesser number comes first, whatever follows. -/
theorem bytes_lt_of_ofDigitChars_lt {left right : List Char}
    (sound : ∀ c ∈ left, c.isDigit = true) (sound' : ∀ c ∈ right, c.isDigit = true)
    (same : left.length = right.length)
    (less : Nat.ofDigitChars 10 left 0 < Nat.ofDigitChars 10 right 0) (after after' : List UInt8) :
    left.flatMap String.utf8EncodeChar ++ after <
      right.flatMap String.utf8EncodeChar ++ after' := by
  induction left generalizing right with
  | nil =>
      rw [List.length_nil, eq_comm, List.length_eq_zero_iff] at same
      rw [same] at less
      cases less
  | cons c rest ih =>
      obtain ⟨d, others, rfl⟩ := List.exists_cons_of_length_eq_add_one same.symm
      have first := sound c List.mem_cons_self
      have second := sound' d List.mem_cons_self
      have tail : ∀ e ∈ rest, e.isDigit = true := fun e member =>
        sound e (List.mem_cons_of_mem c member)
      have tail' : ∀ e ∈ others, e.isDigit = true := fun e member =>
        sound' e (List.mem_cons_of_mem d member)
      have length : rest.length = others.length := Nat.succ.inj same
      rw [Nat.ofDigitChars_cons, Nat.ofDigitChars_cons, Nat.ofDigitChars_eq_ofDigitChars_zero,
        Nat.ofDigitChars_eq_ofDigitChars_zero (l := others), length] at less
      rw [List.flatMap_cons, List.flatMap_cons, utf8EncodeChar_of_isDigit first,
        utf8EncodeChar_of_isDigit second]
      apply List.cons_lt_cons_iff.mpr
      rcases lt_trichotomy c.toNat d.toNat with below | equal | above
      · exact .inl (toUInt8_lt_of_isDigit first second below)
      · obtain rfl := Char.toNat_inj.mp equal
        exact .inr ⟨rfl, ih tail tail' length (Nat.lt_of_add_lt_add_left less)⟩
      · -- A greater digit in front makes the number greater, whatever digits follow.
        exfalso
        have bound := ofDigitChars_lt_pow tail'
        have lowest := (toNat_of_isDigit second).1
        have zero : '0'.toNat = 48 := rfl
        have front : d.toNat - 48 + 1 ≤ c.toNat - 48 := by omega
        have step := Nat.mul_le_mul_left (10 ^ others.length) front
        rw [Nat.mul_add, Nat.mul_one] at step
        rw [zero, Nat.mul_zero, Nat.zero_add, Nat.zero_add] at less
        omega

theorem bytes_frameFileName (number : Nat) :
    bytes (frameFileName number) =
      bytes "frame_" ++ (((Nat.toDigits 10 number).leftpad 3 '0').flatMap String.utf8EncodeChar ++
        bytes ".svg") := by
  rw [frameFileName, bytes_append, bytes_append, List.append_assoc, ← bytes_ofList]

theorem bytes_frameFileName_lt {m n : Nat} (less : m < n) (small : n < 1000) :
    bytes (frameFileName m) < bytes (frameFileName n) := by
  rw [bytes_frameFileName, bytes_frameFileName]
  apply List.append_left_lt
  apply bytes_lt_of_ofDigitChars_lt
  · intro c member
    exact isDigit_of_mem_leftpad member
  · intro c member
    exact isDigit_of_mem_leftpad member
  · rw [length_leftpad_toDigits (by decide) (less.trans small),
      length_leftpad_toDigits (by decide) small]
  · rw [ofDigitChars_leftpad, ofDigitChars_leftpad]
    exact less

/-- The names of the files for the frames of a drawing, one after the other. -/
def Frames.fileNames (frames : Frames) : List String :=
  (List.range' 1 frames.size).map frameFileName

variable {style : Svg.Style} {palette : Palette} {start : Point Float}
  {segments : List (Segment Float)}

theorem Frames.pairwise_fileNames :
    (Frames.ofSegments style palette start segments).fileNames.Pairwise fun left right =>
      bytes left < bytes right := by
  have size := length_frameEnds_le segments.length
  apply List.pairwise_map.mpr
  have rising := List.pairwise_lt_range' (s := 1)
    (n := (Frames.ofSegments style palette start segments).size)
  apply rising.imp_of_mem
  intro m n _ member less
  apply bytes_frameFileName_lt less
  have bound := (List.mem_range'_1.mp member).2
  change n < 1 + (frameEnds segments.length).length at bound
  rw [maxFrames] at size
  omega

theorem bytes_injective : Function.Injective bytes := by
  intro left right same
  apply String.toByteArray_inj.mp
  apply ByteArray.ext
  exact Array.toList_inj.mp same

/-- Whether a text comes before another or is the same, by their bytes. -/
def bytesLe (left right : String) : Bool := decide (bytes left ≤ bytes right)

/-- Sorting finds the order of texts that rise. -/
theorem mergeSort_eq_of_rising {texts rising : List String}
    (sorted : rising.Pairwise fun left right => bytes left < bytes right)
    (same : texts.Perm rising) : texts.mergeSort bytesLe = rising := by
  have merged : (texts.mergeSort bytesLe).Pairwise fun left right => bytesLe left right = true := by
    apply List.pairwise_mergeSort
    · intro a b c first second
      exact decide_eq_true (List.le_trans (of_decide_eq_true first) (of_decide_eq_true second))
    · intro a b
      rw [Bool.or_eq_true]
      exact (List.le_total (bytes a) (bytes b)).imp decide_eq_true decide_eq_true
  apply List.Perm.eq_of_pairwise _ merged
  · apply sorted.imp
    intro left right less
    exact decide_eq_true (List.le_of_lt less)
  · exact (List.mergeSort_perm texts bytesLe).trans same
  · intro left right _ _ first second
    apply bytes_injective
    exact List.le_antisymm (of_decide_eq_true first) (of_decide_eq_true second)

/-- The frames of drawings with a number of segments are evenly spaced. -/
structure EvenlySpaced (count : Nat) (ends : List Nat) : Prop where
  rising : ends.Pairwise (· < ·)
  within : ∀ shown ∈ ends, 1 ≤ shown ∧ shown ≤ count
  none : ends = [] ↔ count = 0
  first : 0 < count → ends.head? = some 1
  last : 0 < count → ends.getLast? = some count
  /-- From no segment to the first frame, and from each frame to the next. -/
  near : (0 :: ends).IsChain fun shown next => next ≤ shown + (count / 200 + 1)
  capped : ends.length ≤ maxFrames
  each : count ≤ 199 → ends = List.range' 1 count

theorem evenlySpaced_frameEnds (count : Nat) : EvenlySpaced count (frameEnds count) where
  rising := frameEnds_pairwise_lt count
  within := fun _ => bounds_of_mem_frameEnds
  none := frameEnds_eq_nil_iff count
  first := frameEnds_head?
  last := frameEnds_getLast?
  near := frameEnds_isChain count
  capped := length_frameEnds_le count
  each := frameEnds_of_few

/-- Frames are evenly spaced and there are not too many of them, so their files have the order of
the drawing when they are sorted by name. -/
theorem frames_in_order :
    (∀ count, EvenlySpaced count (frameEnds count)) ∧
      (∃ count, (frameEnds count).length = maxFrames) ∧
      ∀ style palette start segments,
        let names := (Frames.ofSegments style palette start segments).fileNames
        names.length = (frameEnds segments.length).length ∧ names.Nodup ∧
          (names.Pairwise fun left right => bytes left < bytes right) ∧
          ∀ files : List String, files.Perm names → files.mergeSort bytesLe = names := by
  refine ⟨evenlySpaced_frameEnds, ⟨599, by decide +kernel⟩, ?_⟩
  intro style palette start segments names
  have rising : names.Pairwise fun left right => bytes left < bytes right :=
    Frames.pairwise_fileNames
  refine ⟨?_, ?_, rising, fun files same => mergeSort_eq_of_rising rising same⟩
  · exact (List.length_map _).trans List.length_range'
  · apply rising.imp
    rintro left _ less rfl
    exact List.lt_irrefl _ less

/-- Three lines, whose files come in another order, and a drawing with as many frames as any. -/
theorem three_files_sorted :
    let frames := Frames.ofSegments {} {} Point.origin (List.replicate 3 ⟨⟨0, 0⟩, ⟨5, 0⟩⟩)
    let files := ["frame_003.svg", "frame_001.svg", "frame_002.svg"]
    (3 ≤ 199 ∧ 0 < 599 ∧ files.Perm frames.fileNames) ∧
      frameEnds 3 = List.range' 1 3 ∧ (frameEnds 599).head? = some 1 ∧
      (frameEnds 599).getLast? = some 599 ∧
      files.mergeSort bytesLe = ["frame_001.svg", "frame_002.svg", "frame_003.svg"] := by
  intro frames files
  have names : frames.fileNames = ["frame_001.svg", "frame_002.svg", "frame_003.svg"] := by
    decide +kernel
  have same : files.Perm frames.fileNames := by
    rw [names]
    decide
  obtain ⟨spaced, _, sorted⟩ := frames_in_order
  have few := (spaced 3).each (by decide)
  have many := spaced 599
  refine ⟨⟨by decide, by decide, same⟩, few, many.first (by decide), many.last (by decide), ?_⟩
  rw [← names]
  exact (sorted {} {} Point.origin (List.replicate 3 ⟨⟨0, 0⟩, ⟨5, 0⟩⟩)).2.2.2 files same

end Frond
