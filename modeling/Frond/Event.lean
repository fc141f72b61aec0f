/-!
Events of the log. An event carries its level, the part of the program it speaks for, a
message and named fields; how it is shown as a line is fixed here.
-/

namespace Frond

/-- Levels from the gravest to the most detailed. -/
inductive Level where
  | error | warn | info | debug | trace
  deriving DecidableEq, Repr

namespace Level

/-- How much detail a level stands for, from one to five. -/
def detail : Level → Nat
  | error => 1
  | warn => 2
  | info => 3
  | debug => 4
  | trace => 5

def name : Level → String
  | error => "ERROR"
  | warn => "WARN"
  | info => "INFO"
  | debug => "DEBUG"
  | trace => "TRACE"

end Level

/-- The value of a field: a count, a text between quotes, or a text as it stands. -/
inductive FieldValue where
  | count (n : Nat)
  | quoted (text : String)
  | plain (text : String)
  deriving DecidableEq, Repr

def FieldValue.text : FieldValue → String
  | count n => toString n
  | quoted text => "\"" ++ text ++ "\""
  | plain text => text

structure Event where
  level : Level
  target : String
  message : String
  fields : List (String × FieldValue) := []
  deriving DecidableEq, Repr

/-- The event as one line: level, target, message and the fields in their order. -/
def Event.line (event : Event) : String :=
  event.level.name ++ " " ++ event.target ++ ": " ++
    " ".intercalate
      (event.message :: event.fields.map fun (name, value) => name ++ "=" ++ value.text)

end Frond
