import Frond.Cli.Arguments
import Frond.Event.Filter.Reading
import Frond.Files.Basic
import Frond.Preset.Lookup
import Frond.Session.Log
import Frond.Settings.Reading

/-!
A run of the program: from the arguments to the exit code, what is printed, what is logged and
the files that are written.
-/

namespace Frond.Cli

/-- How a run ends. -/
structure Outcome where
  exitCode : UInt32 := 0
  output : String := ""
  complaint : String := ""
  events : List Event := []

namespace Outcome

/-- A run that cannot do what it was asked for. -/
def failed (complaint : String) (events : List Event) : Outcome :=
  { exitCode := 1, complaint := complaint ++ "\n", events }

/-- A run that was not understood. -/
def refused (error : UsageError) : Outcome :=
  { exitCode := 2, complaint := Terminal.plain error.message }

end Outcome

/-- The table of presets, one on a line. -/
def presetTable : String :=
  let row (preset : Preset) : String :=
    padded 16 preset.slug ++ " " ++ padded 24 preset.name ++ " angle " ++
      leftPadded 5 (numeralText preset.entry.degrees) ++ "  depth limit " ++
      leftPadded 2 (toString preset.entry.limit.toNat) ++ "  axiom " ++ preset.entry.seed ++ "\n"
  "PRESETS\n=======\n" ++ String.join (Preset.all.map row)
where
  leftPadded (width : Nat) (text : String) : String :=
    String.ofList (text.toList.leftpad width ' ')

/-- The target of what the program itself logs. -/
def logTarget : String := "drawsystem"

def renderedEvent (preset : Preset) (session : Session) (segments : Nat) : Event :=
  { level := .info, target := logTarget, message := "rendered",
    fields := [("preset", .quoted preset.name),
      ("iterations", .count session.plan.grammar.iterations.toNat),
      ("segments", .count segments)] }

def wroteEvent (frames : Nat) (directory : String) : Event :=
  { level := .info, target := logTarget, message := "wrote frame sequence",
    fields := [("frames", .count frames), ("dir", .plain directory)] }

section

variable {m : Type → Type} [Monad m] [Files m]

/-- The settings in a file. -/
def loadFile (path : String) : m (Except SettingsError Settings) := do
  match ← Files.readText path with
  | .ok text => return Settings.ofText text
  | .error e => return .error (.unreadable e.message)

/-- The settings of a run before the choices on its command line, or a complaint. -/
def loadSettings : Option String → m (Except String Settings)
  | none => return .ok {}
  | some path => do
    match ← loadFile path with
    | .ok settings => return .ok settings
    | .error problem =>
      return .error ("Error loading config '" ++ path ++ "': " ++ problem.message)

/-- Writes the documents of frames to files of a directory, from the given number on, until one
cannot be written. -/
def writeFrames (directory : String) (number : Nat) : List String → m (Except FileError Unit)
  | [] => return .ok ()
  | document :: rest => do
    match ← Files.write (Files.join directory (frameFileName number)) document with
    | .ok () => writeFrames directory (number + 1) rest
    | .error e => return .error e

/-- Writes the frames of a session into a directory. -/
def runSequence (session : Session) (palette : Palette) (directory : String)
    (events : List Event) : m Outcome := do
  match ← Files.createDirectories directory with
  | .error e => return .failed ("Error: " ++ e.message) events
  | .ok () =>
    let events := events ++ session.drawnEvents
    match session.frames {} palette with
    | .error failure => return .failed ("Error: " ++ failure.message) events
    | .ok (frames, _) =>
      match ← writeFrames directory 1 frames.toList with
      | .error e => return .failed ("Error: " ++ e.message) events
      | .ok () => return { events := events ++ [wroteEvent frames.size directory] }

/-- Renders a session to a file, or else to the output. -/
def runRender (preset : Preset) (session : Session) (palette : Palette) (output : Option String)
    (events : List Event) : m Outcome := do
  let events := events ++ session.drawnEvents
  match session.render {} palette, session.drawn with
  | .error failure, _ | _, .error failure =>
    return .failed ("Error: " ++ failure.message) events
  | .ok (document, _), .ok (segments, _) =>
    let events := events ++ [renderedEvent preset session segments.length]
    match output with
    | none => return { output := document ++ "\n", events }
    | some path =>
      match ← Files.write path document with
      | .ok () => return { events }
      | .error e => return .failed ("Error writing '" ++ path ++ "': " ++ e.message) events

/-- Does with a preset and settings what the arguments ask for. -/
def runPreset (arguments : Arguments) (preset : Preset) (settings : Settings) : m Outcome :=
  let events := prepareEvents preset settings
  match prepare preset settings with
  | .error failure => return .failed ("Error: " ++ failure.message) events
  | .ok session =>
    if arguments.info then
      return { output := session.plan.grammar.describe ++ "\n", events }
    else
      match arguments.sequence with
      | some directory => runSequence session settings.palette directory events
      | none => runRender preset session settings.palette arguments.output events

/-- Does what the arguments ask for. -/
def runArguments (arguments : Arguments) : m Outcome := do
  if arguments.list then return { output := presetTable }
  match Preset.ofName arguments.preset with
  | .error failure => return .failed ("Error: " ++ failure.message) []
  | .ok preset =>
    match ← loadSettings arguments.config with
    | .error complaint => return .failed complaint []
    | .ok settings => runPreset arguments preset (settings.override arguments.choices)

/-- A run of the program. The filter of the log may be spelled out, else the arguments choose
it. -/
def run (arguments : List String) (filter : Option String) : m Outcome := do
  match Arguments.read arguments with
  | .error .help => return { output := helpText }
  | .error (.usage error) => return .refused error
  | .ok arguments =>
    let outcome ← runArguments arguments
    return { outcome with
      events := outcome.events.filter (Filter.choose arguments.verbose filter).shows }

end

end Frond.Cli
