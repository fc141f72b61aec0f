/-!
Text for a terminal, in which control sequences set colours and the like, and what a reader sees
who has no terminal.
-/

namespace Frond.Terminal

/-- What a terminal takes the next character for. -/
inductive Phase where
  | ground
  /-- After the escape character. -/
  | escape
  /-- After an escape sequence has begun that a letter or digit will end. -/
  | intermediate
  /-- In the parameters of a command. -/
  | command
  /-- At the start of a string that is meant for a device. -/
  | device
  /-- In the parameters of such a string. -/
  | deviceParameters
  /-- Behind the parameters of such a string. -/
  | deviceIntermediate
  /-- In a string that is not shown. -/
  | hidden
  /-- In a string that sets a title or a colour. -/
  | title
  deriving DecidableEq, Repr

def escapeChar : Char := '\x1b'

/-- Text that a terminal sets apart. -/
def emphasised (text : String) : String := "\x1b[1m" ++ text ++ "\x1b[0m"

def isAscii (c : Char) : Bool := c.toNat < 0x80

/-- White space that acts on a terminal instead of being drawn. -/
def isLayout (c : Char) : Bool := c ∈ ['\t', '\n', '\x0c', '\r']

/-- Characters that are shown where no sequence is open. -/
def isShown (c : Char) : Bool := isLayout c || 0x20 ≤ c.toNat && c != '\x7f'

/-- Whether the encoding of a character holds the byte that ends a string. -/
def endsString (c : Char) : Bool := 0x9c ∈ (String.singleton c).toUTF8.toList

namespace Phase

/-- Phases in which white space acts; in the others it belongs to a string. -/
def obeysLayout : Phase → Bool
  | ground | escape | intermediate | command => true
  | device | deviceParameters | deviceIntermediate | hidden | title => false

/-- The phase after a character that is not shown. -/
def next (phase : Phase) (c : Char) : Phase :=
  if c == escapeChar then escape
  else if c == '\x18' || c == '\x1a' then ground
  else
    let opens := 0x20 ≤ c.toNat && c.toNat < 0x30
    let closes := 0x30 ≤ c.toNat && c.toNat < 0x7f
    match phase with
    | ground => ground
    | escape =>
      if opens then intermediate
      else match c with
        | '[' => command
        | ']' => title
        | 'P' => device
        | 'X' | '^' | '_' => hidden
        | _ => if closes then ground else escape
    | intermediate => if closes then ground else intermediate
    | command => if 0x40 ≤ c.toNat && closes then ground else command
    | device =>
      if opens then deviceIntermediate
      else if 0x40 ≤ c.toNat && closes then hidden
      else if closes then deviceParameters
      else device
    | deviceParameters =>
      if opens then deviceIntermediate
      else if 0x3c ≤ c.toNat && closes then hidden
      else deviceParameters
    | deviceIntermediate => if closes then hidden else deviceIntermediate
    | hidden => if endsString c then ground else hidden
    | title => if c == '\x07' then ground else title

end Phase

/-- Whether characters are being shown, and the phase to be in where they are not. -/
structure State where
  showing : Bool := false
  phase : Phase := .ground

namespace State

/-- Whether the next character is shown. Once something has been, all is shown up to the first
character that cannot be. -/
def shows (state : State) (c : Char) : Bool :=
  if state.showing || state.phase == .ground then isShown c
  else state.phase.obeysLayout && isLayout c

def next (state : State) (c : Char) : State :=
  if state.shows c then ⟨true, if isAscii c then state.phase else .ground⟩
  else ⟨false, state.phase.next c⟩

end State

/-- The characters that are shown, from a state on. -/
def shown : State → List Char → List Char
  | _, [] => []
  | state, c :: rest =>
    if state.shows c then c :: shown (state.next c) rest else shown (state.next c) rest

/-- A text without control sequences and control characters. -/
def plain (text : String) : String := String.ofList (shown {} text.toList)

end Frond.Terminal
