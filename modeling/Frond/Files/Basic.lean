/-!
The files that a run of the program reads and writes, for whatever holds them.
-/

namespace Frond

/-- Why a file could not be read or written. -/
inductive FileError where
  | notFound
  | occupied
  | notDirectory
  | isDirectory
  | noSpace
  | nameTooLong
  | notText
  | other (reason : String)
  deriving DecidableEq, Repr

def FileError.message : FileError → String
  | notFound => "No such file or directory (os error 2)"
  | occupied => "File exists (os error 17)"
  | notDirectory => "Not a directory (os error 20)"
  | isDirectory => "Is a directory (os error 21)"
  | noSpace => "No space left on device (os error 28)"
  | nameTooLong => "File name too long (os error 36)"
  | notText => "stream did not contain valid UTF-8"
  | other reason => reason

class Files (m : Type → Type) where
  read : String → m (Except FileError ByteArray)
  /-- Puts a text into a file, in place of what it held. -/
  write : String → String → m (Except FileError Unit)
  isDirectory : String → m Bool
  /-- Makes one directory, in one that is there. -/
  makeDirectory : String → m (Except FileError Unit)

namespace Files

/-- The parts of a path between its slashes. -/
def pieces (path : String) : List String := (path.toList.splitOn '/').map String.ofList

/-- Parts of a path that stay in the directory that they are met in. -/
def isStill (name : String) : Bool := name == "" || name == "."

/-- The paths that names spell from the front of a path, the longest first; the names are given
from last to first. Each path ends in a name that leads on. -/
def leadingPaths : List String → List String
  | [] => []
  | name :: before =>
    if isStill name then leadingPaths before
    else "/".intercalate (name :: before).reverse :: leadingPaths before

/-- The paths above a path, the nearest first. -/
def parents (path : String) : List String := (leadingPaths (pieces path).reverse).drop 1

variable {m : Type → Type} [Monad m] [Files m]

/-- The text that a file holds. -/
def readText (path : String) : m (Except FileError String) := do
  match ← read path with
  | .error e => return .error e
  | .ok content =>
    match String.fromUTF8? content with
    | some text => return .ok text
    | none => return .error .notText

/-- Makes a directory unless it is there. -/
def ensureDirectory (path : String) : m (Except FileError Unit) := do
  match ← makeDirectory path with
  | .ok () => return .ok ()
  | .error e => return if ← isDirectory path then .ok () else .error e

/-- Makes the first of some directories, each of which lies in the next. Where that one is
missing it is made before. -/
def ensureChain : List String → m (Except FileError Unit)
  | [] => return .ok ()
  | path :: above => do
    match ← ensureDirectory path with
    | .error .notFound =>
      match ← ensureChain above with
      | .ok () => ensureDirectory path
      | .error e => return .error e
    | result => return result

/-- Makes a directory and those it lies in, as far as they are missing. -/
def createDirectories (path : String) : m (Except FileError Unit) :=
  ensureChain (path :: parents path)

/-- The path of a name in a directory. -/
def join (directory name : String) : String :=
  if directory.endsWith "/" then directory ++ name else directory ++ "/" ++ name

end Files

end Frond
