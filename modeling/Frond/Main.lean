import Frond.Cli.Program

/-!
The program itself: the files are those of the system, and the log and the complaints go to the
standard error.
-/

namespace Frond.Cli

/-- The environment variable that spells out the filter of the log. -/
def filterVariable : String := "RUST_LOG"

/-- The number of a system error; some layers of the system give it a sign. -/
def errorNumber (code : UInt32) : UInt32 := min code (0 - code)

def fileError : IO.Error → FileError
  | .noFileOrDirectory .. => .notFound
  | .alreadyExists .. => .occupied
  | .inappropriateType _ code _ => if errorNumber code = 20 then .notDirectory else .isDirectory
  | .resourceExhausted _ code _ =>
    if errorNumber code = 28 then .noSpace else .other "Out of resources"
  | problem@(.invalidArgument _ code _) =>
    if errorNumber code = 36 then .nameTooLong else .other (toString problem)
  | problem => .other (toString problem)

/-- What an action on files comes to. -/
def attempt {α : Type} (action : IO α) : IO (Except FileError α) := do
  match ← action.toBaseIO with
  | .ok a => return .ok a
  | .error problem => return .error (fileError problem)

/-- A directory can be opened, but there are no bytes to read in it. -/
def isDirectory (path : String) : IO Bool := do
  let first ← attempt do
    let handle ← IO.FS.Handle.mk path .read
    handle.read 1
  match first with
  | .error .isDirectory => return true
  | _ => return false

instance : Files IO where
  read path := attempt (IO.FS.readBinFile path)
  write path text := attempt do
    let handle ← IO.FS.Handle.mk path .write
    handle.putStr text
    handle.flush
  isDirectory := isDirectory
  makeDirectory path := attempt (IO.FS.createDir path)

end Frond.Cli

def main (arguments : List String) : IO UInt32 := do
  let outcome : Frond.Cli.Outcome ←
    Frond.Cli.run arguments (← IO.getEnv Frond.Cli.filterVariable)
  for event in outcome.events do
    IO.eprintln event.line
  IO.eprint outcome.complaint
  IO.print outcome.output
  return outcome.exitCode
