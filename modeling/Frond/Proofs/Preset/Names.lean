import Mathlib
import Frond.Preset.Lookup

/-!
Presets found by name. A name is found just when its normal form is that of a slug or of a display
name. No two presets share a normal form, so it makes no difference in which order they are tried.
Separators and the case of letters do not show in a normal form, so they can be written in any way.
-/

namespace Frond

/-- One change in how a name is written: a separator more or less, or one letter in the other case.
Only the letters A to Z have a second case here. -/
inductive OneRespelling : List Char → List Char → Prop where
  | insert (before : List Char) {separator : Char} (after : List Char)
      (known : isSeparator separator = true) :
      OneRespelling (before ++ after) (before ++ separator :: after)
  | delete (before : List Char) {separator : Char} (after : List Char)
      (known : isSeparator separator = true) :
      OneRespelling (before ++ separator :: after) (before ++ after)
  | raise (before : List Char) (c : Char) (after : List Char) :
      OneRespelling (before ++ c :: after) (before ++ c.toUpper :: after)
  | lower (before : List Char) (c : Char) (after : List Char) :
      OneRespelling (before ++ c :: after) (before ++ c.toLower :: after)

/-- The same name, written in another way. -/
def Respelt (name other : String) : Prop :=
  Relation.ReflTransGen OneRespelling name.toList other.toList

theorem toUpper_of_le {c : Char} (beyond : 128 ≤ c.toNat) : c.toUpper = c := by
  rw [Char.toUpper, dif_neg]
  rintro ⟨_, last⟩
  have small : c.toNat ≤ 'z'.toNat := last
  exact absurd (beyond.trans small) (by decide)

theorem toLower_of_le {c : Char} (beyond : 128 ≤ c.toNat) : c.toLower = c := by
  rw [Char.toLower, dif_neg]
  rintro ⟨_, last⟩
  have small : c.toNat ≤ 'Z'.toNat := last
  exact absurd (beyond.trans small) (by decide)

/-- What a character adds to a normal form. -/
def normalizeChar (c : Char) : List Char := if isSeparator c then [] else lowercase c

theorem normalize_eq_flatMap (name : String) :
    normalize name = name.toList.flatMap normalizeChar := by
  rw [normalize]
  induction name.toList with
  | nil => rfl
  | cons c rest ih => cases separator : isSeparator c <;> simp [normalizeChar, separator, ih]

theorem normalizeChar_ascii : ∀ code < 128,
    normalizeChar (Char.ofNat code).toUpper = normalizeChar (Char.ofNat code) ∧
      normalizeChar (Char.ofNat code).toLower = normalizeChar (Char.ofNat code) := by
  decide +kernel

theorem normalizeChar_case (c : Char) :
    normalizeChar c.toUpper = normalizeChar c ∧ normalizeChar c.toLower = normalizeChar c := by
  rcases Nat.lt_or_ge c.toNat 128 with ascii | beyond
  · have known := normalizeChar_ascii c.toNat ascii
    rwa [Char.ofNat_toNat] at known
  · rw [toUpper_of_le beyond, toLower_of_le beyond]
    exact ⟨rfl, rfl⟩

theorem OneRespelling.flatMap_eq {name other : List Char} (respelling : OneRespelling name other) :
    other.flatMap normalizeChar = name.flatMap normalizeChar := by
  cases respelling with
  | insert before after known => simp [normalizeChar, known]
  | delete before after known => simp [normalizeChar, known]
  | raise before c after => simp [(normalizeChar_case c).1]
  | lower before c after => simp [(normalizeChar_case c).2]

theorem flatMap_eq_of_respellings {name other : List Char}
    (respelt : Relation.ReflTransGen OneRespelling name other) :
    other.flatMap normalizeChar = name.flatMap normalizeChar := by
  induction respelt with
  | refl => rfl
  | tail _ last ih => exact last.flatMap_eq.trans ih

theorem Respelt.normalize_eq {name other : String} (respelt : Respelt name other) :
    normalize other = normalize name := by
  rw [normalize_eq_flatMap, normalize_eq_flatMap]
  exact flatMap_eq_of_respellings respelt

namespace Preset

theorem mem_all (preset : Preset) : preset ∈ all := by
  cases preset <;> decide

/-- The normal forms by which a preset is found. -/
def forms (preset : Preset) : List (List Char) := [normalize preset.slug, normalize preset.name]

theorem answersTo_iff {preset : Preset} {wanted : List Char} :
    preset.answersTo wanted = true ↔ wanted ∈ preset.forms := by
  simp only [answersTo, forms, Bool.or_eq_true, beq_iff_eq, List.mem_pair]
  exact or_congr eq_comm eq_comm

theorem forms_apart : ∀ preset ∈ all, ∀ other ∈ all, ∀ form ∈ preset.forms, form ∈ other.forms →
    other = preset := by
  decide +kernel

theorem eq_of_mem_forms {preset other : Preset} {form : List Char} (first : form ∈ preset.forms)
    (second : form ∈ other.forms) : other = preset :=
  forms_apart preset preset.mem_all other other.mem_all form first second

/-- Whatever the order in which the presets are tried, only one of them can be found. -/
theorem find?_answersTo_iff {order : List Preset} (whole : ∀ preset : Preset, preset ∈ order)
    {wanted : List Char} {preset : Preset} :
    order.find? (·.answersTo wanted) = some preset ↔ wanted ∈ preset.forms := by
  constructor
  · intro found
    have answers := List.find?_some found
    exact answersTo_iff.mp answers
  · intro form
    cases found : order.find? (·.answersTo wanted) with
    | none => exact absurd (answersTo_iff.mpr form) (List.find?_eq_none.mp found _ (whole preset))
    | some other =>
        have answers := List.find?_some found
        rw [eq_of_mem_forms form (answersTo_iff.mp answers)]

theorem ofName_eq_ok_iff {name : String} {preset : Preset} :
    ofName name = .ok preset ↔ normalize name ∈ preset.forms := by
  rw [← find?_answersTo_iff mem_all, ofName]
  cases all.find? (·.answersTo (normalize name)) <;> simp

theorem ofName_eq_error_iff {name : String} {failure : Failure} :
    ofName name = .error failure ↔
      failure = .unknownPreset name (suggestions (normalize name)) ∧
        ∀ preset : Preset, normalize name ∉ preset.forms := by
  have none : all.find? (·.answersTo (normalize name)) = none ↔
      ∀ preset : Preset, normalize name ∉ preset.forms := by
    simp only [List.find?_eq_none, answersTo_iff, mem_all, forall_true_left]
  rw [← none, ofName]
  cases all.find? (·.answersTo (normalize name)) <;> simp [eq_comm]

theorem ofName_cases (name : String) :
    (∃ preset, ofName name = .ok preset) ∨
      ofName name = .error (.unknownPreset name (suggestions (normalize name))) := by
  cases looked : ofName name with
  | ok preset => exact .inl ⟨preset, rfl⟩
  | error failure => exact .inr (congrArg _ (ofName_eq_error_iff.mp looked).1)

/-- A preset is found by the names whose normal form is that of its slug or of its display name.
These forms belong to no other preset, so the order in which presets are tried has no part in it. A
name that is written in another way finds the same preset or gets the same suggestions. -/
theorem found_by_normal_form (name : String) (preset : Preset) :
    (ofName name = .ok preset ↔
      normalize name = normalize preset.slug ∨ normalize name = normalize preset.name) ∧
    (∀ form ∈ preset.forms, ∀ other : Preset, form ∈ other.forms → other = preset) ∧
    (∀ order : List Preset, order.Perm all →
      order.find? (·.answersTo (normalize name)) = all.find? (·.answersTo (normalize name))) ∧
    ((∃ found, ofName name = .ok found) ∨
      ∃ listed, ofName name = .error (.unknownPreset name listed)) ∧
    ∀ other : String, Respelt name other →
      (ofName other = .ok preset ↔ ofName name = .ok preset) ∧
      ∀ listed, ofName other = .error (.unknownPreset other listed) ↔
        ofName name = .error (.unknownPreset name listed) := by
  refine ⟨?_, ?_, ?_, ?_, ?_⟩
  · rw [ofName_eq_ok_iff, forms, List.mem_pair]
  · intro form first other second
    exact eq_of_mem_forms first second
  · intro order same
    have whole (preset : Preset) : preset ∈ order := same.mem_iff.mpr preset.mem_all
    apply Option.ext
    intro found
    rw [find?_answersTo_iff whole, find?_answersTo_iff mem_all]
  · rcases ofName_cases name with found | unknown
    · exact .inl found
    · exact .inr ⟨_, unknown⟩
  · intro other respelt
    have same := respelt.normalize_eq
    constructor
    · rw [ofName_eq_ok_iff, ofName_eq_ok_iff, same]
    · intro listed
      simp only [ofName_eq_error_iff, same, Failure.unknownPreset.injEq, true_and]

/-- A name that begins with the sign for degrees Kelvin, which counts as a k. -/
theorem found_under_other_spelling :
    Respelt "\u212aoch snowflake" "\u212aOch_snowflake" ∧ all.reverse.Perm all ∧
      ofName "\u212aoch snowflake" = .ok kochSnowflake ∧
      ofName "\u212aOch_snowflake" = .ok kochSnowflake ∧
      all.reverse.find? (·.answersTo (normalize "\u212aoch snowflake")) = some kochSnowflake := by
  have respelt : Respelt "\u212aoch snowflake" "\u212aOch_snowflake" := by
    have separated : OneRespelling "\u212aoch snowflake".toList "\u212aochsnowflake".toList :=
      .delete "\u212aoch".toList "snowflake".toList rfl
    have joined : OneRespelling "\u212aochsnowflake".toList "\u212aoch_snowflake".toList :=
      .insert "\u212aoch".toList "snowflake".toList rfl
    have raised : OneRespelling "\u212aoch_snowflake".toList "\u212aOch_snowflake".toList :=
      .raise ['\u212a'] 'o' "ch_snowflake".toList
    exact .tail (.tail (.single separated) joined) raised
  have reversed := all.reverse_perm
  obtain ⟨found, _, tried, _, spelt⟩ := found_by_normal_form "\u212aoch snowflake" kochSnowflake
  have known := found.mpr (.inl (by decide +kernel))
  refine ⟨respelt, reversed, known, (spelt _ respelt).1.mpr known, ?_⟩
  rw [tried _ reversed]
  decide +kernel

end Preset

end Frond
