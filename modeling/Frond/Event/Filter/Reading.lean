import Frond.Event.Filter
import Frond.Number.Reading
import Frond.Text.Alphanumeric
import Frond.Pattern.Reading
import Frond.Text.Characters

/-!
Filters read from text. A directive is a level, or a target with a span or a field between
brackets and a level after an equals sign, each of which may be missing: `a::b[c{d=e}]=debug`.
-/

namespace Frond.Filter

/-- A level by its name in any mixture of cases, or by its detail. -/
def detail? (text : List Char) : Option Nat :=
  let digits := match text with
    | '+' :: rest => rest
    | _ => text
  if !digits.isEmpty && digits.all Char.isDigit then
    let detail := digitsValue digits
    if detail ≤ Level.trace.detail then some detail else none
  else match String.ofList (text.map Char.toLower) with
    | "off" => some 0
    | "error" => some Level.error.detail
    | "warn" => some Level.warn.detail
    | "info" => some Level.info.detail
    | "debug" => some Level.debug.detail
    | "trace" => some Level.trace.detail
    | _ => none

/-- A directive as it is spelled. -/
structure Clause where
  target : List Char := []
  /-- Whether it is about a span. -/
  span : Bool := false
  field : Option (List Char) := none
  /-- Whether it asks for a value of the field. -/
  value : Bool := false
  detail : Nat := Level.trace.detail

/-- What a clause means for events. Nothing is logged in a span here, and values are only asked
of the fields of spans, so clauses about these concern no event. -/
def Clause.directive? (clause : Clause) : Option Directive :=
  if clause.span || clause.value then none
  else some ⟨String.ofList clause.target, clause.field.map String.ofList, clause.detail⟩

/-- The text of a directive. Each byte of the text without the blanks around it, as a mark, stands
beside the byte that is as far from the start in the text as it was given: the marks tell where
the parts begin and end, and the parts are made of the bytes beside them. -/
abbrev Marked := List (Char × UInt8)

def marked (form text : List UInt8) : Marked := (form.map fun b => Char.ofNat b.toNat).zip text

/-- The bytes up to one of the marks given, and the rest. -/
def cut (stops : List Char) (marked : Marked) : List UInt8 × Marked :=
  let (before, rest) := marked.span fun (mark, _) => mark ∉ stops
  (before.map (·.2), rest)

/-- The characters that bytes stand for. -/
def characters? (bytes : List UInt8) : Option (List Char) :=
  (String.fromUTF8? ⟨bytes.toArray⟩).map String.toList

/-- A clause about a field, which may have a value: a number or a pattern. -/
def Clause.withField? (clause : Clause) (text : List Char) : Option Clause :=
  match text, text.splitOn '=' with
  | _ :: _, [name] => some { clause with field := some name }
  | _ :: _, name :: value :: _ =>
    if (readFloat (String.ofList value)).isOk || isPattern value then
      some { clause with field := some name, value := true }
    else none
  | _, _ => none

/-- The clause with its level, if one follows. What stands behind the marked text is part of the
level. -/
def Clause.withLevel? (clause : Clause) (behind : List UInt8) : Marked → Option Clause
  | [] => some clause
  | ('=', _) :: rest => do
    match ← characters? (rest.map (·.2) ++ behind) with
    | [] => return clause
    | text => return { clause with detail := ← detail? text }
  | _ => none

/-- The clause with what follows an opening bracket: a span, a field between braces or both, and
after the closing bracket perhaps a level. -/
def Clause.bracketed? (clause : Clause) (behind : List UInt8) (marked : Marked) :
    Option Clause := do
  match cut [']', '\x7b'] marked with
  | (_, (']', _) :: rest) => Clause.withLevel? { clause with span := true } behind rest
  | (span, _ :: rest) =>
    match cut ['\x7d'] rest with
    | (field, _ :: (']', _) :: rest) =>
      let clause ← Clause.withField? { clause with span := !span.isEmpty } (← characters? field)
      clause.withLevel? behind rest
    | _ => none
  | _ => none

/-- Characters that a target starts with. -/
def opensTarget (c : Char) : Bool := c ∈ ['-', ':', '_'] || isAlphanumeric c

/-- The clause that a text spells: a level, or what begins with a target or a bracket. -/
def clause? (text : List Char) : Option Clause := do
  let form := trimmed text
  let first ← form.head?
  let bytes := (String.ofList text).toUTF8.toList
  let formBytes := (String.ofList form).toUTF8.toList
  let behind := bytes.drop formBytes.length
  match first, cut ['=', '['] (marked formBytes bytes) with
  | '[', (_, _ :: rest) => Clause.bracketed? {} behind rest
  | _, (target, rest) =>
    guard (opensTarget first)
    match rest with
    | [] =>
      match detail? text with
      | some detail => return { detail }
      | none => return { target := text }
    | ('[', _) :: rest =>
      Clause.bracketed? { target := ← characters? target } behind rest
    | rest => Clause.withLevel? { target := ← characters? target } behind rest

/-- The filter that a text spells, with commas between the directives. A text without any shows
errors alone. -/
def read? (text : String) : Option Filter :=
  match (text.toList.splitOn ',').filter (!·.isEmpty) with
  | [] => some [{ detail := Level.error.detail }]
  | parts => (parts.mapM clause?).map (·.filterMap Clause.directive?)

/-- The filter of a run: the one that is spelled, if that can be read, else the standard one. -/
def choose (verbose : Bool) (text : Option String) : Filter :=
  (text.bind read?).getD (standard verbose)

end Frond.Filter
