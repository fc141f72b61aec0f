import Frond.Cli.Usage
import Frond.Settings.Choices
import Frond.Text.Characters

/-!
A command line read from left to right. The value of a parameter may be attached to it or follow
it; one that follows is judged when the next flag or parameter is met, or at the end.
-/

namespace Frond.Cli

/-- What a command line asks for. -/
structure Arguments where
  preset : String := defaultPreset
  choices : Choices := {}
  config : Option String := none
  output : Option String := none
  sequence : Option String := none
  list : Bool := false
  info : Bool := false
  verbose : Bool := false

/-- Why reading ends before the arguments do. -/
inductive Stop where
  | help
  | usage (error : UsageError)
  deriving DecidableEq, Repr

/-- What a part of an argument that starts with a dash stands for. -/
inductive Piece where
  | flag (flag : Flag)
  | parameter (parameter : Parameter) (attached : Option String)
  | excess (flag : Flag) (value : String)
  | unknown (shown : String)
  deriving DecidableEq, Repr

namespace Piece

/-- A word after two dashes, with a value after an equals sign if there is one. -/
def ofWord (body : List Char) : Piece :=
  let (word, rest) := body.span (· != '=')
  let attached := match rest with
    | _ :: value => some (String.ofList value)
    | [] => none
  match Name.ofWord? (String.ofList word), attached with
  | some (.parameter p), _ => parameter p attached
  | some (.flag f), none => flag f
  | some (.flag f), some value => excess f value
  | none, _ => unknown ("--" ++ String.ofList word)

/-- Letters after a single dash. A parameter takes the rest as its value, less an equals sign at
the front. -/
def ofLetters : List Char → List Piece
  | [] => []
  | letter :: rest =>
    match Name.ofLetter? letter with
    | some (.flag f) => flag f :: ofLetters rest
    | some (.parameter p) =>
      match rest with
      | [] => [parameter p none]
      | '=' :: value => [parameter p (some (String.ofList value))]
      | value => [parameter p (some (String.ofList value))]
    | none => [unknown (String.ofList ['-', letter])]

/-- The pieces of an argument; none if it does not start with a dash or is a dash alone. -/
def ofArgument? (argument : String) : Option (List Piece) :=
  match argument.toList with
  | '-' :: '-' :: body => some [ofWord body]
  | '-' :: letter :: rest => some (ofLetters (letter :: rest))
  | _ => none

end Piece

/-- Integers on the command line are read in 64 bits before their range is judged. -/
def readCount (text : String) : Except ValueError UInt32 :=
  match readInteger lowestInteger highestInteger text with
  | .error problem => .error (.integer problem)
  | .ok n =>
    if 0 ≤ n ∧ n ≤ highestCount then .ok (UInt32.ofNat n.toNat) else .error (.outOfRange n)

def readCoordinate (axis : String) (text : List Char) : Except ValueError Float :=
  match readFloat (String.ofList (trimmed text)) with
  | .error problem => .error (.coordinate axis (String.ofList text) problem)
  | .ok value => .ok value

/-- Two numbers with a comma between them. -/
def readPoint (text : String) : Except ValueError (Point Float) := do
  match text.toList.span (· != ',') with
  | (_, []) => throw (.noComma text)
  | (x, _ :: y) => return ⟨← readCoordinate "x" x, ← readCoordinate "y" y⟩

/-- The path of a file, which has at least one character. -/
def readPath (parameter : Parameter) (text : String) : Except UsageError String :=
  if text.isEmpty then .error (.missing parameter) else .ok text

namespace Arguments

/-- Gives a parameter its value. -/
def assign (arguments : Arguments) (parameter : Parameter) (text : String) :
    Except UsageError Arguments :=
  let invalid {α : Type} (result : Except ValueError α) : Except UsageError α :=
    result.mapError (.invalid parameter text)
  let choices := arguments.choices
  match parameter with
  | .preset => .ok { arguments with preset := text }
  | .iterations => do
    let value ← invalid (readCount text)
    return { arguments with choices := { choices with iterations := some value } }
  | .stepLength => do
    let value ← invalid (readCount text)
    return { arguments with choices := { choices with stepLength := some value } }
  | .start => do
    let value ← invalid (readPoint text)
    return { arguments with choices := { choices with start := some value } }
  | .config => do return { arguments with config := some (← readPath parameter text) }
  | .output => do return { arguments with output := some (← readPath parameter text) }
  | .sequence => do return { arguments with sequence := some (← readPath parameter text) }

def raise (arguments : Arguments) : Flag → Arguments
  | .list => { arguments with list := true }
  | .info => { arguments with info := true }
  | .verbose => { arguments with verbose := true }
  | .help => arguments

end Arguments

/-- A command line as far as it is read. -/
structure Progress where
  arguments : Arguments := {}
  /-- What was given, in order. -/
  given : List Name := []
  /-- The parameter whose value was not judged yet, with the value if that was met. -/
  waiting : Option (Parameter × Option String) := none

namespace Progress

/-- Notes that a name was given; none is given twice. -/
def note (progress : Progress) (name : Name) : Except UsageError Progress :=
  if name ∈ progress.given then .error (.repeated name)
  else .ok { progress with given := progress.given ++ [name] }

def assign (progress : Progress) (parameter : Parameter) (text : String) :
    Except UsageError Progress := do
  let progress ← progress.note (.parameter parameter)
  return { progress with arguments := ← progress.arguments.assign parameter text }

/-- Judges the value that waits. -/
def settle (progress : Progress) : Except UsageError Progress :=
  match progress.waiting with
  | none => .ok progress
  | some (parameter, none) => .error (.missing parameter)
  | some (parameter, some text) => { progress with waiting := none }.assign parameter text

/-- Takes a piece of an argument. What cannot be understood is refused before a value that waits
is judged. -/
def take (progress : Progress) (piece : Piece) : Except Stop Progress :=
  match piece with
  | .unknown shown => .error (.usage (.unknown shown))
  | .excess flag value => .error (.usage (.excess flag value))
  | .parameter parameter none => (progress.settle.map fun settled =>
      { settled with waiting := some (parameter, none) }).mapError .usage
  | .parameter parameter (some text) => (do
      let settled ← progress.settle
      settled.assign parameter text).mapError .usage
  | .flag flag => do
    let settled ← progress.settle.mapError .usage
    if flag = .help then throw .help
    let noted ← (settled.note (.flag flag)).mapError .usage
    return { noted with arguments := noted.arguments.raise flag }

/-- The arguments, once all have been taken. An output and a sequence are not asked for
together. -/
def finish (progress : Progress) : Except UsageError Arguments := do
  let settled ← progress.settle
  let exclusive := settled.given.filterMap fun name =>
    match name with
    | .parameter .output => some Parameter.output
    | .parameter .sequence => some Parameter.sequence
    | _ => none
  match exclusive with
  | first :: second :: _ => throw (.conflict first second)
  | _ => return settled.arguments

/-- Takes arguments one by one. After two dashes alone no argument has a meaning. -/
def takeAll (progress : Progress) : List String → Except Stop Arguments
  | [] => progress.finish.mapError .usage
  | argument :: rest =>
    if argument = "--" then
      match rest with
      | [] => progress.finish.mapError .usage
      | extra :: _ => .error (.usage (.unknown extra))
    else
      match Piece.ofArgument? argument, progress.waiting with
      | some pieces, _ => do (← pieces.foldlM take progress).takeAll rest
      | none, some (parameter, none) =>
        { progress with waiting := some (parameter, some argument) }.takeAll rest
      | none, _ => .error (.usage (.unknown argument))

end Progress

/-- What the arguments of a run ask for. -/
def Arguments.read (arguments : List String) : Except Stop Arguments :=
  Progress.takeAll {} arguments

end Frond.Cli
