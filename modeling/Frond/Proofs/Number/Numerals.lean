import Mathlib
import Frond.Proofs.Number.Decimals
import Frond.Proofs.Number.Integers
import Frond.Proofs.Text.Cutting

/-!
Doubles that are read from text. A numeral has a sign or none, digits with a point before, among or
after them or none, and an exponent or none; infinity and what is not a number have names. What is
read is the double nearest to the value that is spelt.
-/

namespace Frond

open Binary64 (RoundsTo ofFloat)

theorem toNat_of_isAlpha {c : Char} (letter : c.isAlpha = true) :
    65 ≤ c.toNat ∧ c.toNat ≤ 122 := by
  simp only [Char.isAlpha, Char.isUpper, Char.isLower, Bool.or_eq_true, Bool.and_eq_true,
    decide_eq_true_eq] at letter
  rcases letter with ⟨least, most⟩ | ⟨least, most⟩
  · exact ⟨least, Nat.le_trans most (by decide)⟩
  · exact ⟨Nat.le_trans (by decide) least, most⟩

theorem isAlpha_of_isDigit {c : Char} (digit : c.isDigit = true) : c.isAlpha = false := by
  rw [Bool.eq_false_iff]
  intro letter
  have above := (toNat_of_isAlpha letter).1
  have below := (toNat_of_isDigit digit).2
  omega

/-- Digits with a point before, among or after them, or without one, spell a value. -/
inductive SpellsDecimal : List Char → ℚ → Prop
  | whole {digits : List Char} (sound : Digits digits) :
      SpellsDecimal digits (Nat.ofDigitChars 10 digits 0)
  | pointed {whole fraction : List Char} (sound : Digits (whole ++ fraction)) :
      SpellsDecimal (whole ++ '.' :: fraction)
        (Nat.ofDigitChars 10 (whole ++ fraction) 0 / 10 ^ fraction.length)

/-- A numeral ends in an exponent, or in nothing. -/
inductive SpellsExponent : List Char → ℤ → Prop
  | none : SpellsExponent [] 0
  | marked {mark : Char} {rest : List Char} {n : ℤ} (letter : mark = 'e' ∨ mark = 'E')
      (spelt : SpellsInteger rest n) : SpellsExponent (mark :: rest) n

/-- A text without a sign spells a double of the given sign: the one nearest to the value of a
numeral, or one that has a name. -/
inductive SpellsUnsigned (negative : Bool) : List Char → Float → Prop
  | numeral {front tail : List Char} {x : ℚ} {n : ℤ} {value : Float}
      (decimal : SpellsDecimal front x) (exponent : SpellsExponent tail n)
      (rounds : RoundsTo negative (x * 10 ^ n) (ofFloat value)) :
      SpellsUnsigned negative (front ++ tail) value
  | infinite {text : List Char} {value : Float}
      (named : text.map Char.toLower = "inf".toList ∨ text.map Char.toLower = "infinity".toList)
      (parts : ofFloat value = .infinite negative) : SpellsUnsigned negative text value
  | nan {text : List Char} {value : Float} (named : text.map Char.toLower = "nan".toList)
      (parts : ofFloat value = .nan) : SpellsUnsigned negative text value

/-- A text spells a double. -/
def SpellsDouble (text : List Char) (value : Float) : Prop :=
  ∃ front negative rest, text = front ++ rest ∧ SignText front negative ∧
    SpellsUnsigned negative rest value

namespace Decimal

theorem exponent?_eq_some_iff {text : List Char} {n : ℤ} :
    exponent? text = some n ↔ SpellsExponent text n := by
  have value (negative : Bool) (digits : List Char) :
      (if negative then -(digitsValue digits : ℤ) else digitsValue digits) =
        withSign negative (Nat.ofDigitChars 10 digits 0 : ℤ) := rfl
  cases text with
  | nil =>
      constructor
      · rintro ⟨⟩
        exact .none
      · rintro ⟨⟩
        rfl
  | cons mark rest =>
      rw [exponent?]
      dsimp only
      rw [value]
      constructor
      · intro read
        split at read
        case isFalse => cases read
        case isTrue shape =>
          simp only [Bool.and_eq_true, Bool.or_eq_true, beq_iff_eq, List.all_eq_true,
            Bool.not_eq_true', List.isEmpty_eq_false_iff] at shape
          obtain ⟨⟨letter, filled⟩, sound⟩ := shape
          obtain ⟨front, cut, sign⟩ := signText_splitSign rest
          exact .marked letter
            ⟨front, _, _, cut, sign, ⟨filled, sound⟩, (Option.some.inj read).symm⟩
      · rintro (_ | ⟨letter, front, negative, digits, rfl, sign, sound, rfl⟩)
        rw [splitSign_append sign sound.unsignedly]
        dsimp only
        rw [if_pos]
        simp only [Bool.and_eq_true, Bool.or_eq_true, beq_iff_eq, List.all_eq_true,
          Bool.not_eq_true', List.isEmpty_eq_false_iff]
        exact ⟨⟨letter, sound.1⟩, sound.2⟩

theorem named?_eq_some_iff {negative : Bool} {text : List Char} {value : Float} :
    named? negative text = some value ↔
      (text.map Char.toLower = "inf".toList ∨ text.map Char.toLower = "infinity".toList) ∧
          ofFloat value = .infinite negative ∨
        text.map Char.toLower = "nan".toList ∧ ofFloat value = .nan := by
  have infinite : Binary64.infinity negative = value ↔ ofFloat value = .infinite negative := by
    rw [← Binary64.ofFloat_infinity, Binary64.ofFloat_injective.eq_iff, eq_comm]
  have unknown : Binary64.notANumber = value ↔ ofFloat value = .nan := by
    rw [← Binary64.ofFloat_notANumber, Binary64.ofFloat_injective.eq_iff, eq_comm]
  rw [named?]
  generalize text.map Char.toLower = name
  split
  case h_1 same =>
    rw [String.ofList_eq.mp same, Option.some.injEq, infinite]
    simp
  case h_2 same =>
    rw [String.ofList_eq.mp same, Option.some.injEq, infinite]
    simp
  case h_3 same =>
    rw [String.ofList_eq.mp same, Option.some.injEq, unknown]
    simp
  case h_4 short long unknown =>
    rw [String.ofList_eq] at short long unknown
    refine ⟨nofun, ?_⟩
    rintro (⟨same | same, _⟩ | ⟨same, _⟩)
    · exact absurd same short
    · exact absurd same long
    · exact absurd same unknown

section

variable {negative : Bool} {whole fraction tail : List Char} {value : Float}

/-- Every text can be cut behind the digits that it begins with. -/
theorem exists_cut (text : List Char) :
    ∃ digits rest, text = digits ++ rest ∧ (∀ c ∈ digits, c.isDigit = true) ∧
      rest.takeWhile Char.isDigit = [] := by
  refine ⟨text.takeWhile Char.isDigit, text.dropWhile Char.isDigit,
    List.takeWhile_append_dropWhile.symm, fun c member => List.mem_takeWhile_imp member, ?_⟩
  exact List.takeWhile_eq_nil_iff.mpr fun inside => List.dropWhile_get_zero_not _ _ inside

theorem cut_append (sound : ∀ c ∈ whole, c.isDigit = true)
    (ended : tail.takeWhile Char.isDigit = []) :
    (whole ++ tail).takeWhile Char.isDigit = whole ∧
      (whole ++ tail).dropWhile Char.isDigit = tail := by
  have rest := List.takeWhile_append_dropWhile (p := Char.isDigit) (l := tail)
  rw [ended, List.nil_append] at rest
  rw [List.takeWhile_append_of_pos sound, List.dropWhile_append_of_pos sound, ended,
    List.append_nil, rest]
  exact ⟨rfl, rfl⟩

/-- What is made of a numeral that was cut at its point and behind its digits. -/
theorem assembled_eq_some_iff :
    (if whole.isEmpty && fraction.isEmpty then none
      else (exponent? tail).map fun exponent =>
        toFloat negative (digitsValue (whole ++ fraction)) (exponent - fraction.length)) =
        some value ↔
      whole ++ fraction ≠ [] ∧ ∃ n, SpellsExponent tail n ∧
        toFloat negative (Nat.ofDigitChars 10 (whole ++ fraction) 0) (n - fraction.length) =
          value := by
  have empty : (whole.isEmpty && fraction.isEmpty) = true ↔ whole ++ fraction = [] := by simp
  rw [ite_eq_iff, empty]
  simp only [reduceCtorEq, and_false, false_or, Option.map_eq_some_iff, exponent?_eq_some_iff]
  rfl

theorem unsigned?_whole (sound : ∀ c ∈ whole, c.isDigit = true)
    (ended : tail.takeWhile Char.isDigit = []) (pointless : ∀ after, tail ≠ '.' :: after) :
    unsigned? negative (whole ++ tail) = some value ↔
      whole ++ [] ≠ [] ∧ ∃ n, SpellsExponent tail n ∧
        toFloat negative (Nat.ofDigitChars 10 (whole ++ []) 0) (n - 0) = value := by
  obtain ⟨front, rest⟩ := cut_append sound ended
  rw [unsigned?, front, rest]
  split
  case h_1 cut =>
    split at cut
    · exact absurd rfl (pointless _)
    · cases cut
      exact assembled_eq_some_iff

theorem unsigned?_pointed (sound : ∀ c ∈ whole, c.isDigit = true)
    (sound' : ∀ c ∈ fraction, c.isDigit = true) (ended : tail.takeWhile Char.isDigit = []) :
    unsigned? negative (whole ++ '.' :: (fraction ++ tail)) = some value ↔
      whole ++ fraction ≠ [] ∧ ∃ n, SpellsExponent tail n ∧
        toFloat negative (Nat.ofDigitChars 10 (whole ++ fraction) 0) (n - fraction.length) =
          value := by
  have point : ('.' :: (fraction ++ tail)).takeWhile Char.isDigit = [] := rfl
  obtain ⟨front, rest⟩ := cut_append sound point
  obtain ⟨front', rest'⟩ := cut_append sound' ended
  rw [unsigned?, front, rest]
  split
  case h_1 cut =>
    split at cut
    case h_1 after same =>
      cases same
      rw [front', rest'] at cut
      cases cut
      exact assembled_eq_some_iff
    case h_2 other => exact absurd rfl (other _)

end

theorem ended_of_spelt {tail : List Char} {n : ℤ} (exponent : SpellsExponent tail n) :
    tail.takeWhile Char.isDigit = [] ∧ ∀ after, tail ≠ '.' :: after := by
  cases exponent with
  | none => exact ⟨rfl, nofun⟩
  | marked letter spelt =>
      rcases letter with rfl | rfl
      · exact ⟨rfl, nofun⟩
      · exact ⟨rfl, nofun⟩

/-- The value of a numeral as one of its digits without the point. -/
theorem shifted_value (digits fraction : List Char) (n : ℤ) :
    (Nat.ofDigitChars 10 digits 0 : ℚ) * 10 ^ (n - fraction.length) =
      Nat.ofDigitChars 10 digits 0 / 10 ^ fraction.length * 10 ^ n := by
  rw [zpow_sub₀ (by norm_num), zpow_natCast]
  ring

theorem unsigned?_eq_some_iff {negative : Bool} {text : List Char} {value : Float} :
    unsigned? negative text = some value ↔
      ∃ front tail x n, text = front ++ tail ∧ SpellsDecimal front x ∧ SpellsExponent tail n ∧
        RoundsTo negative (x * 10 ^ n) (ofFloat value) := by
  constructor
  · intro read
    obtain ⟨whole, rest, rfl, before, ended⟩ := exists_cut text
    by_cases pointed : ∃ after, rest = '.' :: after
    · obtain ⟨after, rfl⟩ := pointed
      obtain ⟨fraction, tail, rfl, behind, stopped⟩ := exists_cut after
      obtain ⟨filled, n, exponent, rfl⟩ := (unsigned?_pointed before behind stopped).mp read
      have sound : Digits (whole ++ fraction) :=
        ⟨filled, fun c member => (List.mem_append.mp member).elim (before c) (behind c)⟩
      refine ⟨_, tail, _, n, ?_, .pointed sound, exponent, ?_⟩
      · rw [List.append_assoc, List.cons_append]
      · rw [← shifted_value]
        exact roundsTo_toFloat negative _ _
    · have pointless : ∀ after, rest ≠ '.' :: after := fun after same => pointed ⟨after, same⟩
      obtain ⟨filled, n, exponent, rfl⟩ := (unsigned?_whole before ended pointless).mp read
      rw [List.append_nil] at filled
      refine ⟨whole, rest, _, n, rfl, .whole ⟨filled, before⟩, exponent, ?_⟩
      rw [List.append_nil, sub_zero]
      exact roundsTo_toFloat negative _ n
  · rintro ⟨front, tail, x, n, rfl, decimal, exponent, rounds⟩
    obtain ⟨ended, pointless⟩ := ended_of_spelt exponent
    cases decimal with
    | whole sound =>
        apply (unsigned?_whole sound.2 ended pointless).mpr
        rw [List.append_nil]
        refine ⟨sound.1, n, exponent, ?_⟩
        apply RoundsTo.unique _ rounds
        rw [sub_zero]
        exact roundsTo_toFloat negative _ n
    | @pointed whole fraction sound =>
        rw [List.append_assoc, List.cons_append]
        have before : ∀ c ∈ whole, c.isDigit = true := fun c member =>
          sound.2 c (List.mem_append_left _ member)
        have behind : ∀ c ∈ fraction, c.isDigit = true := fun c member =>
          sound.2 c (List.mem_append_right _ member)
        apply (unsigned?_pointed before behind ended).mpr
        refine ⟨sound.1, n, exponent, ?_⟩
        apply RoundsTo.unique _ rounds
        rw [← shifted_value]
        exact roundsTo_toFloat negative _ _

theorem starts_of_spelt {text : List Char} {x : ℚ} (spelt : SpellsDecimal text x) :
    ∃ c rest, text = c :: rest ∧ (c.isDigit = true ∨ c = '.') := by
  cases spelt with
  | whole sound =>
      obtain ⟨c, rest, rfl⟩ := List.exists_cons_of_ne_nil sound.1
      exact ⟨c, rest, rfl, .inl (sound.2 c List.mem_cons_self)⟩
  | @pointed whole fraction sound =>
      cases whole with
      | nil => exact ⟨'.', fraction, rfl, .inr rfl⟩
      | cons c rest => exact ⟨c, _, rfl, .inl (sound.2 c List.mem_cons_self)⟩

theorem isAlpha_of_named {text : List Char} {name : String}
    (letters : name.toList.all Char.isAlpha = true)
    (named : text.map Char.toLower = name.toList) : ∀ c ∈ text, c.isAlpha = true := by
  intro c member
  rw [← Char.isAlpha_toLower_eq_isAlpha]
  apply List.all_eq_true.mp letters
  rw [← named]
  exact List.mem_map_of_mem member

theorem isAlpha_of_named? {negative : Bool} {text : List Char} {value : Float}
    (named : named? negative text = some value) : ∀ c ∈ text, c.isAlpha = true := by
  rcases named?_eq_some_iff.mp named with ⟨same | same, _⟩ | ⟨same, _⟩
  all_goals exact isAlpha_of_named (by decide) same

theorem read_eq_some_iff {negative : Bool} {text : List Char} {value : Float} :
    (named? negative text <|> unsigned? negative text) = some value ↔
      SpellsUnsigned negative text value := by
  rw [Option.orElse_eq_orElse]
  constructor
  · intro read
    cases named : named? negative text with
    | some found =>
        rw [named] at read
        cases read
        rcases named?_eq_some_iff.mp named with ⟨name, parts⟩ | ⟨name, parts⟩
        · exact .infinite name parts
        · exact .nan name parts
    | none =>
        rw [named] at read
        obtain ⟨front, tail, x, n, rfl, decimal, exponent, rounds⟩ := unsigned?_eq_some_iff.mp read
        exact .numeral decimal exponent rounds
  · intro spelt
    cases spelt with
    | infinite name parts => rw [named?_eq_some_iff.mpr (.inl ⟨name, parts⟩)]; rfl
    | nan name parts => rw [named?_eq_some_iff.mpr (.inr ⟨name, parts⟩)]; rfl
    | @numeral front tail x n value decimal exponent rounds =>
        have unnamed : named? negative (front ++ tail) = none := by
          obtain ⟨c, rest, rfl, first⟩ := starts_of_spelt decimal
          apply Option.eq_none_iff_forall_ne_some.mpr
          intro found named
          have letter := isAlpha_of_named? named c List.mem_cons_self
          rcases first with digit | rfl
          · rw [isAlpha_of_isDigit digit] at letter
            cases letter
          · cases letter
        rw [unnamed]
        exact unsigned?_eq_some_iff.mpr ⟨front, tail, x, n, rfl, decimal, exponent, rounds⟩

/-- A text that spells a double without a sign is not empty and does not begin with one. -/
theorem unsignedly_of_spelt {negative : Bool} {text : List Char} {value : Float}
    (spelt : SpellsUnsigned negative text value) : text ≠ [] ∧ Unsignedly text := by
  have letters {name : String} (filled : name.toList ≠ [])
      (alphabetic : name.toList.all Char.isAlpha = true)
      (named : text.map Char.toLower = name.toList) : text ≠ [] ∧ Unsignedly text := by
    have letter := isAlpha_of_named alphabetic named
    cases text with
    | nil => exact absurd named.symm filled
    | cons c rest =>
        have first := letter c List.mem_cons_self
        refine ⟨List.cons_ne_nil c rest, ?_, ?_⟩
        all_goals
          rintro ⟨⟩
          cases first
  cases spelt with
  | numeral decimal exponent rounds =>
      obtain ⟨c, rest, rfl, first⟩ := starts_of_spelt decimal
      refine ⟨List.cons_ne_nil c _, ?_, ?_⟩
      all_goals
        rintro ⟨⟩
        rcases first with digit | point
        · cases digit
        · cases point
  | infinite named parts =>
      rcases named with named | named
      all_goals exact letters (by decide) (by decide) named
  | nan named parts => exact letters (by decide) (by decide) named

end Decimal

/-- The doubles that are read are those that are spelt. -/
theorem readFloat_eq_ok_iff {text : String} {value : Float} :
    readFloat text = .ok value ↔ SpellsDouble text.toList value := by
  rw [readFloat]
  constructor
  · intro read
    obtain ⟨front, cut, sign⟩ := signText_splitSign text.toList
    split at read
    case isTrue => cases read
    case isFalse =>
      dsimp only at read
      split at read
      case h_1 found same =>
        cases read
        exact ⟨front, _, _, cut, sign, Decimal.read_eq_some_iff.mp same⟩
      case h_2 => cases read
  · rintro ⟨front, negative, rest, cut, sign, spelt⟩
    obtain ⟨filled, bare⟩ := Decimal.unsignedly_of_spelt spelt
    have nonempty : ¬text.isEmpty = true := by
      intro empty
      rw [String.isEmpty_iff.mp empty] at cut
      exact filled (List.append_eq_nil_iff.mp cut.symm).2
    rw [if_neg nonempty, cut, splitSign_append sign bare]
    dsimp only
    rw [Decimal.read_eq_some_iff.mpr spelt]

/-- No white space stands in a text that spells a double. -/
theorem isSpace_of_spelt {text : List Char} {value : Float} (spelt : SpellsDouble text value) :
    ∀ c ∈ text, isSpace c = false := by
  have numeric {digits : List Char} (sound : ∀ c ∈ digits, c.isDigit = true) :
      ∀ c ∈ digits, isSpace c = false := by
    intro c member
    have := toNat_of_isDigit (sound c member)
    exact isSpace_of_graphic (by omega) (by omega)
  have alphabetic {letters : List Char} (sound : ∀ c ∈ letters, c.isAlpha = true) :
      ∀ c ∈ letters, isSpace c = false := by
    intro c member
    have := toNat_of_isAlpha (sound c member)
    exact isSpace_of_graphic (by omega) (by omega)
  have signed {front : List Char} {negative : Bool} (sign : SignText front negative) :
      ∀ c ∈ front, isSpace c = false := by
    cases sign with
    | none => exact nofun
    | _ => exact List.forall_mem_singleton.mpr rfl
  obtain ⟨front, negative, rest, rfl, sign, spelt⟩ := spelt
  refine List.forall_mem_append.mpr ⟨signed sign, ?_⟩
  cases spelt with
  | infinite named parts =>
      rcases named with named | named
      all_goals exact alphabetic (Decimal.isAlpha_of_named (by decide) named)
  | nan named parts => exact alphabetic (Decimal.isAlpha_of_named (by decide) named)
  | numeral decimal exponent rounds =>
      refine List.forall_mem_append.mpr ⟨?_, ?_⟩
      · cases decimal with
        | whole sound => exact numeric sound.2
        | pointed sound =>
            have parts := List.forall_mem_append.mp (numeric sound.2)
            exact List.forall_mem_append.mpr
              ⟨parts.1, List.forall_mem_cons.mpr ⟨rfl, parts.2⟩⟩
      · cases exponent with
        | none => exact nofun
        | marked letter spelt =>
            obtain ⟨front, negative, digits, rfl, sign, sound, -⟩ := spelt
            refine List.forall_mem_cons.mpr ⟨?_, ?_⟩
            · rcases letter with rfl | rfl <;> rfl
            · exact List.forall_mem_append.mpr ⟨signed sign, numeric sound.2⟩

end Frond
