import Frond.Cli.Arguments
import Frond.Proofs.Number.Numerals
import Frond.Proofs.Session.Coherence

/-!
What the values on a command line say: counts of 32 bits, points of two coordinates with a comma
between them, and paths. A parameter is given its value if the text spells one, and none of the
other arguments changes with it.
-/

namespace Frond.Cli

theorem mapError_eq_ok_iff {ε δ α : Type} {result : Except ε α} {f : ε → δ} {value : α} :
    result.mapError f = .ok value ↔ result = .ok value := by
  cases result with
  | error e => exact ⟨nofun, nofun⟩
  | ok found =>
      constructor
      all_goals
        intro same
        cases same
        rfl

theorem exists_of_rel_some {α β : Type} {r : α → β → Prop} {a : α} {b : Option β}
    (rel : Option.Rel r (some a) b) : ∃ value, b = some value ∧ r a value := by
  cases rel with
  | some related => exact ⟨_, rfl, related⟩

/-- Where one value at most is related to each, an option is related to one as well. -/
theorem rel_unique {α β : Type} {r : α → β → Prop} {a : Option α} {b c : Option β}
    (unique : ∀ a b c, r a b → r a c → b = c) (first : Option.Rel r a b)
    (second : Option.Rel r a c) : b = c := by
  cases first with
  | none =>
      cases second
      rfl
  | some related =>
      cases second with
      | some related' => rw [unique _ _ _ related related']

def SpellsCount (text : String) (count : UInt32) : Prop :=
  SpellsInteger text.toList (count.toNat : ℤ)

/-- Two doubles are spelt before and after the first comma, with white space around them or none. -/
def SpellsPoint (text : String) (point : Point Float) : Prop :=
  ∃ x y, text.toList = x ++ ',' :: y ∧ ',' ∉ x ∧
    (∃ inner, Padded inner x ∧ SpellsDouble inner point.x) ∧
    ∃ inner, Padded inner y ∧ SpellsDouble inner point.y

def SpellsPath (text path : String) : Prop := text = path ∧ path ≠ ""

theorem readCount_eq_ok_iff {text : String} {count : UInt32} :
    readCount text = .ok count ↔ SpellsCount text count := by
  have lowest : lowestInteger ≤ 0 := by decide
  have highest : 0 ≤ highestInteger := by decide
  have inside : (highestCount : ℤ) ≤ highestInteger := by decide
  have bounds : count.toNat ≤ highestCount := Nat.le_pred_of_lt count.toNat_lt
  rw [readCount]
  constructor
  · intro read
    split at read
    case h_1 => cases read
    case h_2 n found =>
      obtain ⟨spelt, -⟩ := (readInteger_eq_ok_iff lowest highest).mp found
      split at read
      case isFalse => cases read
      case isTrue within =>
        cases read
        have small : n.toNat < UInt32.size := by
          have : highestCount < UInt32.size := by decide
          omega
        rw [SpellsCount, UInt32.toNat_ofNat_of_lt' small, Int.toNat_of_nonneg within.1]
        exact spelt
  · intro spelt
    have found := (readInteger_eq_ok_iff lowest highest).mpr ⟨spelt, by omega, by omega⟩
    rw [found]
    dsimp only
    rw [if_pos ⟨by omega, by exact_mod_cast bounds⟩, Int.toNat_natCast, UInt32.ofNat_toNat]

theorem readCoordinate_eq_ok_iff {axis : String} {text : List Char} {value : Float} :
    readCoordinate axis text = .ok value ↔
      ∃ inner, Padded inner text ∧ SpellsDouble inner value := by
  have judged : readCoordinate axis text = .ok value ↔
      readFloat (String.ofList (trimmed text)) = .ok value := by
    rw [readCoordinate]
    split
    case h_1 problem same =>
      rw [same]
      exact ⟨nofun, nofun⟩
    case h_2 found same => rw [same, Except.ok.injEq, Except.ok.injEq]
  rw [judged, readFloat_eq_ok_iff, String.toList_ofList]
  constructor
  · intro spelt
    exact ⟨_, padded_trimmed text, spelt⟩
  · rintro ⟨inner, padded, spelt⟩
    rwa [trimmed_of_padded padded (isSpace_of_spelt spelt)]

theorem readPoint_eq_ok_iff {text : String} {point : Point Float} :
    readPoint text = .ok point ↔ SpellsPoint text point := by
  rw [readPoint]
  constructor
  · intro read
    split at read
    case h_1 => cases read
    case h_2 x c y cut =>
      obtain ⟨whole, first, ended | ⟨after, same⟩⟩ := span_bne_eq_iff.mp cut
      · cases ended
      · cases same
        obtain ⟨left, here, read⟩ := bind_eq_ok_iff.mp read
        obtain ⟨right, there, read⟩ := bind_eq_ok_iff.mp read
        cases read
        exact ⟨x, y, whole, first, readCoordinate_eq_ok_iff.mp here,
          readCoordinate_eq_ok_iff.mp there⟩
  · rintro ⟨x, y, whole, first, left, right⟩
    rw [span_bne_eq_iff.mpr ⟨whole, first, .inr ⟨y, rfl⟩⟩]
    exact bind_eq_ok_iff.mpr ⟨point.x, readCoordinate_eq_ok_iff.mpr left,
      bind_eq_ok_iff.mpr ⟨point.y, readCoordinate_eq_ok_iff.mpr right, rfl⟩⟩

theorem readPath_eq_ok_iff {parameter : Parameter} {text path : String} :
    readPath parameter text = .ok path ↔ SpellsPath text path := by
  rw [readPath, SpellsPath]
  split
  case isTrue empty =>
    rw [String.isEmpty_iff.mp empty]
    refine ⟨nofun, ?_⟩
    rintro ⟨rfl, filled⟩
    exact absurd rfl filled
  case isFalse filled =>
    rw [Except.ok.injEq]
    constructor
    · rintro rfl
      exact ⟨rfl, fun empty => filled (String.isEmpty_iff.mpr empty)⟩
    · exact And.left

theorem count_unique (text : String) (first second : UInt32) (left : SpellsCount text first)
    (right : SpellsCount text second) : first = second :=
  Except.ok.inj ((readCount_eq_ok_iff.mpr left).symm.trans (readCount_eq_ok_iff.mpr right))

theorem point_unique (text : String) (first second : Point Float) (left : SpellsPoint text first)
    (right : SpellsPoint text second) : first = second :=
  Except.ok.inj ((readPoint_eq_ok_iff.mpr left).symm.trans (readPoint_eq_ok_iff.mpr right))

theorem path_unique (text first second : String) (left : SpellsPath text first)
    (right : SpellsPath text second) : first = second := left.1.symm.trans right.1

namespace Arguments

/-- What the arguments are where a parameter was given a text, or where it was not given. -/
def Takes (arguments : Arguments) (parameter : Parameter) (text : Option String) : Prop :=
  match parameter with
  | .preset => arguments.preset = text.getD defaultPreset
  | .iterations => Option.Rel SpellsCount text arguments.choices.iterations
  | .stepLength => Option.Rel SpellsCount text arguments.choices.stepLength
  | .start => Option.Rel SpellsPoint text arguments.choices.start
  | .config => Option.Rel SpellsPath text arguments.config
  | .output => Option.Rel SpellsPath text arguments.output
  | .sequence => Option.Rel SpellsPath text arguments.sequence

/-- A flag was raised. No arguments are left of a command line that asks for help. -/
def Raised (arguments : Arguments) : Flag → Prop
  | .list => arguments.list = true
  | .info => arguments.info = true
  | .verbose => arguments.verbose = true
  | .help => False

/-- Colours are not chosen on the command line. -/
def Colourless (arguments : Arguments) : Prop :=
  arguments.choices.background = none ∧ arguments.choices.line = none

/-- Arguments differ in what one parameter was given at most. -/
structure Beside (arguments next : Arguments) (parameter : Parameter) : Prop where
  takes : ∀ other ≠ parameter, ∀ text, next.Takes other text ↔ arguments.Takes other text
  raised : ∀ flag, next.Raised flag ↔ arguments.Raised flag
  colourless : next.Colourless ↔ arguments.Colourless

variable {arguments next : Arguments} {parameter : Parameter} {text : String}

theorem takes_raise (f : Flag) {given : Option String} :
    (arguments.raise f).Takes parameter given ↔ arguments.Takes parameter given := by
  cases f <;> exact Iff.rfl

theorem raised_raise {f other : Flag} (known : f ≠ .help) :
    (arguments.raise f).Raised other ↔ other = f ∨ arguments.Raised other := by
  cases f with
  | help => exact absurd rfl known
  | _ => cases other <;> simp [raise, Raised]

theorem colourless_raise (f : Flag) : (arguments.raise f).Colourless ↔ arguments.Colourless := by
  cases f <;> exact Iff.rfl

theorem takes_of_assign (assigned : arguments.assign parameter text = .ok next) :
    next.Takes parameter (some text) := by
  cases parameter with
  | preset =>
      cases assigned
      rfl
  | iterations | stepLength =>
      obtain ⟨value, read, assigned⟩ := bind_eq_ok_iff.mp assigned
      cases assigned
      exact .some (readCount_eq_ok_iff.mp (mapError_eq_ok_iff.mp read))
  | start =>
      obtain ⟨value, read, assigned⟩ := bind_eq_ok_iff.mp assigned
      cases assigned
      exact .some (readPoint_eq_ok_iff.mp (mapError_eq_ok_iff.mp read))
  | config | output | sequence =>
      obtain ⟨value, read, assigned⟩ := bind_eq_ok_iff.mp assigned
      cases assigned
      exact .some (readPath_eq_ok_iff.mp read)

theorem beside_of_assign (assigned : arguments.assign parameter text = .ok next) :
    arguments.Beside next parameter := by
  cases parameter with
  | preset =>
      cases assigned
      refine ⟨?_, fun flag => by cases flag <;> exact Iff.rfl, Iff.rfl⟩
      intro other foreign text
      cases other <;> first | exact absurd rfl foreign | exact Iff.rfl
  | _ =>
      obtain ⟨value, _, assigned⟩ := bind_eq_ok_iff.mp assigned
      cases assigned
      refine ⟨?_, fun flag => by cases flag <;> exact Iff.rfl, Iff.rfl⟩
      intro other foreign text
      cases other <;> first | exact absurd rfl foreign | exact Iff.rfl

/-- A text that some arguments take for a parameter can be given to it. -/
theorem exists_assign {model : Arguments} (takes : model.Takes parameter (some text))
    (arguments : Arguments) : ∃ next, arguments.assign parameter text = .ok next := by
  cases parameter with
  | preset => exact ⟨_, rfl⟩
  | iterations | stepLength =>
      obtain ⟨value, -, spelt⟩ := exists_of_rel_some takes
      exact ⟨_, bind_eq_ok_iff.mpr
        ⟨value, mapError_eq_ok_iff.mpr (readCount_eq_ok_iff.mpr spelt), rfl⟩⟩
  | start =>
      obtain ⟨value, -, spelt⟩ := exists_of_rel_some takes
      exact ⟨_, bind_eq_ok_iff.mpr
        ⟨value, mapError_eq_ok_iff.mpr (readPoint_eq_ok_iff.mpr spelt), rfl⟩⟩
  | config | output | sequence =>
      obtain ⟨value, -, spelt⟩ := exists_of_rel_some takes
      exact ⟨_, bind_eq_ok_iff.mpr ⟨value, readPath_eq_ok_iff.mpr spelt, rfl⟩⟩

/-- What was given for all parameters, and which flags were raised, is all that there is to know. -/
theorem eq_of_takes {other : Arguments}
    (takes : ∀ parameter, ∃ text, arguments.Takes parameter text ∧ other.Takes parameter text)
    (raised : ∀ flag, arguments.Raised flag ↔ other.Raised flag)
    (left : arguments.Colourless) (right : other.Colourless) : arguments = other := by
  have preset : arguments.preset = other.preset := by
    obtain ⟨text, first, second⟩ := takes .preset
    exact first.trans second.symm
  have iterations : arguments.choices.iterations = other.choices.iterations := by
    obtain ⟨text, first, second⟩ := takes .iterations
    exact rel_unique count_unique first second
  have stepLength : arguments.choices.stepLength = other.choices.stepLength := by
    obtain ⟨text, first, second⟩ := takes .stepLength
    exact rel_unique count_unique first second
  have start : arguments.choices.start = other.choices.start := by
    obtain ⟨text, first, second⟩ := takes .start
    exact rel_unique point_unique first second
  have config : arguments.config = other.config := by
    obtain ⟨text, first, second⟩ := takes .config
    exact rel_unique path_unique first second
  have output : arguments.output = other.output := by
    obtain ⟨text, first, second⟩ := takes .output
    exact rel_unique path_unique first second
  have sequence : arguments.sequence = other.sequence := by
    obtain ⟨text, first, second⟩ := takes .sequence
    exact rel_unique path_unique first second
  have list : arguments.list = other.list := Bool.eq_iff_iff.mpr (raised .list)
  have info : arguments.info = other.info := Bool.eq_iff_iff.mpr (raised .info)
  have verbose : arguments.verbose = other.verbose := Bool.eq_iff_iff.mpr (raised .verbose)
  obtain ⟨background, line⟩ := left
  obtain ⟨background', line'⟩ := right
  obtain ⟨_, ⟨_, _, _, _, _⟩, _, _, _, _, _, _⟩ := arguments
  obtain ⟨_, ⟨_, _, _, _, _⟩, _, _, _, _, _, _⟩ := other
  simp only at *
  subst_vars
  rfl

end Arguments

end Frond.Cli
