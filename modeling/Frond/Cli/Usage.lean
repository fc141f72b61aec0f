import Frond.Cli.Name
import Frond.Number.Reading
import Frond.Text.Terminal

/-!
Why a command line was not understood. The messages are for a terminal, on which the names and
texts that they quote are set apart.
-/

namespace Frond.Cli

/-- Why a text is not a value of a parameter. -/
inductive ValueError where
  | integer (problem : IntegerError)
  | outOfRange (n : Int)
  | noComma (text : String)
  | coordinate (axis text : String) (problem : FloatError)
  deriving DecidableEq, Repr

/-- Counts are kept in 32 bits. -/
def highestCount : Nat := UInt32.size - 1

def ValueError.message : ValueError → String
  | integer problem => problem.message
  | outOfRange n => toString n ++ " is not in 0..=" ++ toString highestCount
  | noComma text => "expected X,Y but got '" ++ text ++ "'"
  | coordinate axis text problem => "bad " ++ axis ++ " '" ++ text ++ "': " ++ problem.message

inductive UsageError where
  | unknown (argument : String)
  | excess (flag : Flag) (value : String)
  | missing (parameter : Parameter)
  | repeated (name : Name)
  | invalid (parameter : Parameter) (value : String) (problem : ValueError)
  | conflict (first second : Parameter)
  deriving DecidableEq, Repr

namespace UsageError

open Terminal (emphasised)

/-- What a message says in its first line. -/
def reason : UsageError → String
  | unknown argument => "unexpected argument '" ++ emphasised argument ++ "' found"
  | excess flag value =>
    "unexpected value '" ++ emphasised value ++ "' for '" ++ emphasised (Name.flag flag).shown ++
      "' found; no more were expected"
  | missing parameter =>
    "a value is required for '" ++ emphasised (Name.parameter parameter).shown ++
      "' but none was supplied"
  | repeated name =>
    "the argument '" ++ emphasised name.shown ++ "' cannot be used multiple times"
  | invalid parameter value problem =>
    "invalid value '" ++ emphasised value ++ "' for '" ++
      emphasised (Name.parameter parameter).shown ++ "': " ++ problem.message
  | conflict first second =>
    "the argument '" ++ emphasised (Name.parameter first).shown ++ "' cannot be used with '" ++
      emphasised (Name.parameter second).shown ++ "'"

/-- The message, which ends in a pointer to the help text. -/
def message (error : UsageError) : String :=
  emphasised "error:" ++ " " ++ error.reason ++ "\n\nFor more information, try '" ++
    emphasised (Name.flag .help).shown ++ "'.\n"

end UsageError

end Frond.Cli
