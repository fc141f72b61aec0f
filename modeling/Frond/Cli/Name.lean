/-!
What may be given on the command line: flags, and parameters that take a value. The help text is
made from the same labels by which they are recognised.
-/

namespace Frond.Cli

inductive Parameter where
  | preset | iterations | stepLength | start | config | output | sequence
  deriving DecidableEq, Repr

inductive Flag where
  | list | info | verbose | help
  deriving DecidableEq, Repr

inductive Name where
  | parameter (parameter : Parameter)
  | flag (flag : Flag)
  deriving DecidableEq, Repr

structure Label where
  /-- The name after a single dash. -/
  letter : Option Char
  /-- The name after two dashes. -/
  word : String
  about : String
  deriving Repr

/-- The preset that is drawn if nobody chose one. -/
def defaultPreset : String := "sierpinski"

def Parameter.label : Parameter → Label
  | preset => ⟨'p', "preset",
      "Preset to draw, by name or slug (see --list) [default: " ++ defaultPreset ++ "]"⟩
  | iterations => ⟨'n', "iterations", "Fractal depth (generations of rewriting)"⟩
  | stepLength => ⟨'l', "step-length", "Distance the turtle moves per drawing step"⟩
  | start => ⟨none, "start", "Turtle start position as X,Y"⟩
  | config => ⟨'c', "config", "Drawing config file (TOML format)"⟩
  | output => ⟨'o', "output", "Output file (writes to stdout if not provided)"⟩
  | sequence => ⟨none, "sequence", "Directory to write a progressive frame sequence into"⟩

def Flag.label : Flag → Label
  | list => ⟨none, "list", "List the built-in presets"⟩
  | info => ⟨none, "info", "Print the grammar summary instead of drawing"⟩
  | verbose => ⟨'v', "verbose", "Enable debug logging"⟩
  | help => ⟨'h', "help", "Print help"⟩

namespace Name

/-- All names, in the order of the help text. -/
def all : List Name :=
  [.preset, .iterations, .stepLength, .start, .config, .output, .sequence].map .parameter ++
    [.list, .info, .verbose, .help].map .flag

def label : Name → Label
  | parameter p => p.label
  | flag f => f.label

def ofLetter? (letter : Char) : Option Name := all.find? (·.label.letter == some letter)

def ofWord? (word : String) : Option Name := all.find? (·.label.word == word)

/-- What stands for the value of a parameter: its word in capitals. -/
def placeholder (word : String) : String :=
  String.ofList (word.toList.map fun c => if c = '-' then '_' else c.toUpper)

/-- The name as messages show it. -/
def shown : Name → String
  | parameter p => "--" ++ p.label.word ++ " <" ++ placeholder p.label.word ++ ">"
  | flag f => "--" ++ f.label.word

/-- The name as the help text shows it, with its letter if it has one. -/
def column (name : Name) : String :=
  (match name.label.letter with
    | some letter => String.ofList ['-', letter, ',', ' ']
    | none => "    ") ++ name.shown

end Name

/-- A text with blanks after it, up to a width. -/
def padded (width : Nat) (text : String) : String :=
  String.ofList (text.toList.rightpad width ' ')

def helpText : String :=
  let columns := Name.all.map Name.column
  let width := (columns.map String.length).foldl max 0
  let lines := Name.all.map fun name =>
    "  " ++ padded width name.column ++ "  " ++ name.label.about ++ "\n"
  "Draw L-system fractal curves as SVG\n\nUsage: drawsystem [OPTIONS]\n\nOptions:\n" ++
    String.join lines

end Frond.Cli
