import Frond.Proofs.Cli.Meaning
import Frond.Proofs.Cli.Sequence
import Frond.Proofs.Frames.Progress
import Frond.Proofs.Session.Prepared

/-!
A run of the program does what the library does. The preset, the settings and the session are
judged before anything is written; then the document of the session is written or printed, or its
frames are.
-/

namespace Frond.Cli

open FileTree (Filled Made run_bind_eq)

/-- A run starts from the settings in the file that it is given, or from the usual ones. -/
def Configured (tree : FileTree) (config : Option String) (settings : Settings) : Prop :=
  match config with
  | none => settings = {}
  | some path => ∃ text, tree.read path = .ok text.toUTF8 ∧ Settings.ofText text = .ok settings

/-- What is drawn: a value on the command line goes before the one in the settings. -/
def Arguments.drawing (arguments : Arguments) (settings : Settings) : Settings :=
  { settings with
    stepLength := arguments.choices.stepLength.getD settings.stepLength
    iterations := arguments.choices.iterations.getD settings.iterations
    start := arguments.choices.start.getD settings.start }

/-- A run comes to a session: its preset has a name, its settings can be read, and the preset opens
with them. -/
structure Ready (arguments : Arguments) (tree : FileTree) (preset : Preset) (settings : Settings)
    (session : Session) : Prop where
  named : Preset.ofName arguments.preset = .ok preset
  drawing : ∃ base, Configured tree arguments.config base ∧ settings = arguments.drawing base
  prepared : prepare preset settings = .ok session

/-- The document of a preset with settings, and the frames of a session that was opened for it. -/
structure Shown (preset : Preset) (settings : Settings) (session : Session) (document : String)
    (frames : Frames) : Prop where
  rendered : renderPreset preset settings {} = .ok document
  framed : ∃ next, session.frames {} settings.palette = .ok (frames, next)
  last : ∀ last, frames.toList.getLast? = some last → last = document

/-- A run has put what it shows where it was asked to, and does so if all that has to be written
can be. -/
def Delivered (arguments : Arguments) (tree : FileTree) (document : String) (frames : Frames)
    (outcome : Outcome) (after : FileTree) : Prop :=
  match arguments.sequence, arguments.output with
  | some directory, _ =>
    (outcome.exitCode = 0 →
      outcome.output = "" ∧ Framed tree directory frames.toList after) ∧
    (Room tree directory frames.toList → outcome.exitCode = 0)
  | none, some path =>
    (outcome.exitCode = 0 → outcome.output = "" ∧
      ∃ place, tree.place? path = .ok place ∧ Filled tree [(place, document)] after) ∧
    ((∃ next, tree.write path document = .ok next) → outcome.exitCode = 0)
  | none, none => outcome.exitCode = 0 ∧ outcome.output = document ++ "\n" ∧ after = tree

/-- How a run ends, and what it leaves in the tree. -/
structure Agrees (arguments : Arguments) (tree : FileTree) (outcome : Outcome)
    (after : FileTree) : Prop where
  listed : arguments.list = true →
    outcome.exitCode = 0 ∧ outcome.output = presetTable ∧ after = tree
  stopped : arguments.list = false →
    (∀ preset settings session, ¬Ready arguments tree preset settings session) →
    outcome.exitCode = 1 ∧ outcome.output = "" ∧ after = tree
  described : arguments.list = false → arguments.info = true →
    ∀ preset settings session, Ready arguments tree preset settings session →
    outcome.exitCode = 0 ∧ outcome.output = session.plan.grammar.describe ++ "\n" ∧ after = tree
  delivered : arguments.list = false → arguments.info = false →
    ∀ preset settings session, Ready arguments tree preset settings session →
    ∃ document frames, Shown preset settings session document frames ∧
      Delivered arguments tree document frames outcome after
  exits : arguments.list = false → arguments.info = false → arguments.sequence = none →
    (∀ path, arguments.output = some path → ∀ text, ∃ next, tree.write path text = .ok next) →
    (outcome.exitCode = 0 ↔
      ∃ preset settings session, Ready arguments tree preset settings session)

section

variable {arguments : Arguments} {tree : FileTree} {preset : Preset} {settings : Settings}
  {session : Session}

theorem run_loadFile (tree : FileTree) (path : String) :
    ∃ result, (loadFile (m := StateM FileTree) path).run tree = (result, tree) ∧
      ∀ base, result = .ok base ↔ Configured tree (some path) base := by
  obtain ⟨result, ran, held⟩ := FileTree.run_readText tree path
  rw [loadFile, run_bind_eq ran]
  cases result with
  | error e =>
      refine ⟨_, rfl, fun base => ⟨nofun, ?_⟩⟩
      rintro ⟨text, read, _⟩
      cases (held text).mpr read
  | ok text =>
      refine ⟨_, rfl, fun base => ⟨fun judged => ⟨text, (held text).mp rfl, judged⟩, ?_⟩⟩
      rintro ⟨other, read, judged⟩
      cases (held other).mpr read
      exact judged

theorem run_loadSettings (tree : FileTree) (config : Option String) :
    ∃ result, (loadSettings (m := StateM FileTree) config).run tree = (result, tree) ∧
      ∀ base, result = .ok base ↔ Configured tree config base := by
  cases config with
  | none => exact ⟨_, rfl, fun base => by rw [Except.ok.injEq, Configured, eq_comm]⟩
  | some path =>
      obtain ⟨result, ran, held⟩ := run_loadFile tree path
      rw [loadSettings, run_bind_eq ran]
      simp only [← held]
      cases result with
      | error problem =>
          refine ⟨_, rfl, fun base => ⟨?_, ?_⟩⟩ <;>
            · intro same
              cases same
      | ok settings => exact ⟨_, rfl, fun base => by rw [Except.ok.injEq, Except.ok.injEq]⟩

theorem override_of_colourless (colourless : arguments.Colourless) (base : Settings) :
    base.override arguments.choices = arguments.drawing base := by
  obtain ⟨background, line⟩ := colourless
  rw [Settings.override, background, line]
  rfl

theorem exists_shown (prepared : prepare preset settings = .ok session) :
    ∃ document frames segments next, session.drawn = .ok (segments, next) ∧
      session.render {} settings.palette = .ok (document, next) ∧
      session.frames {} settings.palette = .ok (frames, next) ∧
      Shown preset settings session document frames := by
  obtain ⟨segments, next, drawn⟩ := Session.drawn_of_prepare prepared
  have rendered := Session.render_of_drawn drawn {} settings.palette
  have framed := Session.frames_of_drawn drawn {} settings.palette
  refine ⟨_, _, segments, next, drawn, rendered, framed, ?_, ⟨next, framed⟩, ?_⟩
  · exact bind_eq_ok_iff.mpr ⟨session, prepared, bind_eq_ok_iff.mpr ⟨_, rendered, rfl⟩⟩
  · intro last ended
    exact Frames.eq_render_of_getLast?_toList ended

theorem run_runArguments_of_configured (unlisted : arguments.list = false)
    (colourless : arguments.Colourless) (named : Preset.ofName arguments.preset = .ok preset)
    {base : Settings} (read : Configured tree arguments.config base) :
    (runArguments (m := StateM FileTree) arguments).run tree =
      (runPreset (m := StateM FileTree) arguments preset (arguments.drawing base)).run tree := by
  obtain ⟨result, loaded, held⟩ := run_loadSettings tree arguments.config
  obtain rfl := (held base).mpr read
  simp only [runArguments, unlisted, named, Bool.false_eq_true, if_false]
  rw [run_bind_eq loaded, ← override_of_colourless colourless]

theorem run_runPreset_of_refused {failure : Failure}
    (refused : prepare preset settings = .error failure) :
    (runPreset (m := StateM FileTree) arguments preset settings).run tree =
      (.failed ("Error: " ++ failure.message) (prepareEvents preset settings), tree) := by
  rw [runPreset, refused]
  rfl

theorem stopped_runArguments (unlisted : arguments.list = false)
    (colourless : arguments.Colourless)
    (unready : ∀ preset settings session, ¬Ready arguments tree preset settings session) :
    ∃ outcome, (runArguments (m := StateM FileTree) arguments).run tree = (outcome, tree) ∧
      outcome.exitCode = 1 ∧ outcome.output = "" := by
  cases named : Preset.ofName arguments.preset with
  | error failure =>
      rw [runArguments, unlisted, named]
      exact ⟨_, rfl, rfl, rfl⟩
  | ok preset =>
      obtain ⟨result, loaded, held⟩ := run_loadSettings tree arguments.config
      cases result with
      | error complaint =>
          simp only [runArguments, unlisted, named, Bool.false_eq_true, if_false]
          rw [run_bind_eq loaded]
          exact ⟨_, rfl, rfl, rfl⟩
      | ok base =>
          have read := (held base).mp rfl
          rw [run_runArguments_of_configured unlisted colourless named read]
          cases prepared : prepare preset (arguments.drawing base) with
          | ok session => exact absurd ⟨named, ⟨base, read, rfl⟩, prepared⟩ (unready _ _ _)
          | error failure => exact ⟨_, run_runPreset_of_refused prepared, rfl, rfl⟩

theorem run_runPreset_of_info (info : arguments.info = true)
    (prepared : prepare preset settings = .ok session) :
    (runPreset (m := StateM FileTree) arguments preset settings).run tree =
      ({ output := session.plan.grammar.describe ++ "\n",
         events := prepareEvents preset settings }, tree) := by
  rw [runPreset, prepared]
  simp only [info, if_true]
  rfl

variable {document : String} {frames : Frames} {segments : List (Segment Float)} {next : Session}

theorem run_runRender_file (tree : FileTree) (preset : Preset) (events : List Event)
    {palette : Palette} (path : String) (drawn : session.drawn = .ok (segments, next))
    (rendered : session.render {} palette = .ok (document, next)) :
    ∃ logged,
      (runRender (m := StateM FileTree) preset session palette (some path) events).run tree =
      match tree.write path document with
      | .ok written => ({ events := logged }, written)
      | .error e => (.failed ("Error writing '" ++ path ++ "': " ++ e.message) logged, tree) := by
  have ran := FileTree.run_write tree path document
  rw [runRender, rendered, drawn]
  dsimp only
  rw [run_bind_eq ran]
  cases tree.write path document with
  | ok written => exact ⟨_, rfl⟩
  | error e => exact ⟨_, rfl⟩

theorem delivered_runPreset (drawing : arguments.info = false)
    (prepared : prepare preset settings = .ok session)
    (drawn : session.drawn = .ok (segments, next))
    (rendered : session.render {} settings.palette = .ok (document, next))
    (framed : session.frames {} settings.palette = .ok (frames, next)) :
    Delivered arguments tree document frames
      ((runPreset (m := StateM FileTree) arguments preset settings).run tree).1
      ((runPreset (m := StateM FileTree) arguments preset settings).run tree).2 := by
  rw [runPreset, prepared, Delivered]
  simp only [drawing, Bool.false_eq_true, if_false]
  cases arguments.sequence with
  | some directory => exact delivered_runSequence (prepareEvents preset settings) framed rfl
  | none =>
      cases arguments.output with
      | some path =>
          obtain ⟨logged, ran⟩ := run_runRender_file tree preset (prepareEvents preset settings)
            path drawn rendered
          dsimp only
          rw [ran]
          cases written : tree.write path document with
          | ok written' =>
              refine ⟨fun _ => ⟨rfl, FileTree.filled_of_write written⟩, fun _ => rfl⟩
          | error e =>
              refine ⟨nofun, ?_⟩
              rintro ⟨_, ⟨⟩⟩
      | none =>
          rw [runRender, rendered, drawn]
          exact ⟨rfl, rfl, rfl⟩

theorem agrees_runArguments (colourless : arguments.Colourless) (tree : FileTree) :
    Agrees arguments tree ((runArguments (m := StateM FileTree) arguments).run tree).1
      ((runArguments (m := StateM FileTree) arguments).run tree).2 := by
  have stops (unlisted : arguments.list = false)
      (unready : ∀ preset settings session, ¬Ready arguments tree preset settings session) :
      ((runArguments (m := StateM FileTree) arguments).run tree).1.exitCode = 1 ∧
        ((runArguments (m := StateM FileTree) arguments).run tree).1.output = "" ∧
        ((runArguments (m := StateM FileTree) arguments).run tree).2 = tree := by
    obtain ⟨outcome, ran, code, silent⟩ := stopped_runArguments unlisted colourless unready
    rw [ran]
    exact ⟨code, silent, rfl⟩
  have delivers (unlisted : arguments.list = false) (drawing : arguments.info = false)
      (preset : Preset) (settings : Settings) (session : Session)
      (ready : Ready arguments tree preset settings session) :
      ∃ document frames, Shown preset settings session document frames ∧
        Delivered arguments tree document frames
          ((runArguments (m := StateM FileTree) arguments).run tree).1
          ((runArguments (m := StateM FileTree) arguments).run tree).2 := by
    obtain ⟨document, frames, segments, next, drawn, rendered, framed, shown⟩ :=
      exists_shown ready.prepared
    refine ⟨document, frames, shown, ?_⟩
    obtain ⟨named, ⟨base, read, rfl⟩, prepared⟩ := ready
    rw [run_runArguments_of_configured unlisted colourless named read]
    exact delivered_runPreset drawing prepared drawn rendered framed
  refine ⟨?_, stops, ?_, delivers, ?_⟩
  · intro listed
    rw [runArguments, if_pos listed]
    exact ⟨rfl, rfl, rfl⟩
  · intro unlisted info preset settings session ⟨named, ⟨base, read, same⟩, prepared⟩
    subst same
    rw [run_runArguments_of_configured unlisted colourless named read,
      run_runPreset_of_info info prepared]
    exact ⟨rfl, rfl, rfl⟩
  · intro unlisted drawing single writable
    constructor
    · intro code
      by_contra unready
      push Not at unready
      rw [(stops unlisted unready).1] at code
      cases code
    · rintro ⟨preset, settings, session, ready⟩
      obtain ⟨document, frames, _, delivered⟩ := delivers unlisted drawing _ _ _ ready
      rw [Delivered, single] at delivered
      cases path : arguments.output with
      | none =>
          rw [path] at delivered
          exact delivered.1
      | some file =>
          rw [path] at delivered
          exact delivered.2 (writable file path document)

end

/-- Words that mean nothing change nothing. They ask for help, or are refused. -/
theorem run_of_meaningless {words : List String} (meaningless : ∀ arguments, ¬Means words arguments)
    (filter : Option String) (tree : FileTree) :
    ∃ outcome, (run (m := StateM FileTree) words filter).run tree = (outcome, tree) ∧
      (outcome.exitCode = 0 ∧ outcome.output = helpText ∨
        outcome.exitCode = 2 ∧ outcome.output = "") := by
  cases read : Arguments.read words with
  | ok arguments => exact absurd (Arguments.read_eq_ok_iff.mp read) (meaningless arguments)
  | error stop =>
      rw [run, read]
      cases stop with
      | help => exact ⟨_, rfl, .inl ⟨rfl, rfl⟩⟩
      | usage error => exact ⟨_, rfl, .inr ⟨rfl, rfl⟩⟩

/-- A command line that is understood does what the library does with its preset, its settings and
its choices. What can be refused is refused before anything is written. -/
theorem agrees_run {words : List String} {arguments : Arguments} (meant : Means words arguments)
    (filter : Option String) (tree : FileTree) :
    Agrees arguments tree ((run (m := StateM FileTree) words filter).run tree).1
      ((run (m := StateM FileTree) words filter).run tree).2 := by
  obtain ⟨given, spelt, allowed, asks⟩ := meant
  have agrees := agrees_runArguments asks.colourless tree
  rw [run, Arguments.read_eq_ok_iff.mpr ⟨given, spelt, allowed, asks⟩]
  exact ⟨agrees.listed, agrees.stopped, agrees.described, agrees.delivered, agrees.exits⟩

/-- A configuration, one of whose values the command line chooses anew. -/
def plantText : String := "[drawing]\nstep_length = 7\niterations = 3\n"

/-- A tree that holds the configuration, and no directory. -/
def plantTree : FileTree := { nodes := [(["draw.toml"], .file plantText.toUTF8)] }

def plantSettings : Settings := { stepLength := 7, iterations := 1, start := ⟨3, 4⟩ }

def plantSession : Session := { plan := preparedPlan .plant1 plantSettings }

/-- The plant is chosen on the command line, with its depth and its start. -/
def plantArguments : Arguments where
  preset := "plant1"
  choices := { iterations := some 1, start := some ⟨3, 4⟩ }
  config := some "draw.toml"

theorem ofText_plantText :
    Settings.ofText plantText = .ok { stepLength := 7, iterations := 3 } := by
  have read : Choices.read? plantText = some { stepLength := some 7, iterations := some 3 } := by
    cbv
  rw [Settings.ofText, read]
  rfl

theorem read_plantTree : plantTree.read "draw.toml" = .ok plantText.toUTF8 := by
  rfl

theorem ready_plantArguments (output sequence : Option String) :
    Ready { plantArguments with output, sequence } plantTree .plant1 plantSettings
      plantSession := by
  refine ⟨?_, ⟨_, ⟨plantText, read_plantTree, ofText_plantText⟩, rfl⟩, ?_⟩
  · exact (by decide : Preset.ofName "plant1" = .ok .plant1)
  · exact prepare_eq_ok_iff.mpr ⟨by decide, by decide, rfl⟩

/-- The plant has three segments, and a frame for each. -/
theorem length_plant_frames {frames : Frames} {next : Session}
    (framed : plantSession.frames {} plantSettings.palette = .ok (frames, next)) :
    frames.toList.length = 3 := by
  obtain ⟨segments, after, drawn, count⟩ : ∃ segments after,
      plantSession.drawn = .ok (segments, after) ∧ segments.length = 3 := by
    refine ⟨_, _, rfl, ?_⟩
    rw [Plan.drawing, interpret_segments_length]
    decide
  rw [Session.frames_of_drawn drawn] at framed
  cases framed
  rw [Frames.toList, List.length_map]
  change (frameEnds segments.length).length = 3
  rw [count]
  rfl

theorem made_plantTree :
    Made plantTree "frames" ["frames"] (plantTree.put ["frames"] .directory) := by
  refine ⟨⟨[], ["frames"], rfl, rfl⟩, rfl, ?_⟩
  intro place
  by_cases here : place = ["frames"]
  · subst here
    exact .inr ⟨⟨[], ["frames"], rfl, .here ⟨rfl, by decide⟩⟩, rfl, rfl⟩
  · exact .inl (FileTree.find?_put_of_ne plantTree .directory here)

theorem bare_plantTree (name : String) :
    (plantTree.put ["frames"] .directory).find? ["frames", name] = none := by
  rw [FileTree.find?_put_of_ne plantTree .directory (by simp)]
  rfl

theorem room_plantTree {documents : List String} (few : documents.length = 3) :
    Room plantTree "frames" documents := by
  refine ⟨?_, ["frames"], _, made_plantTree, ?_⟩
  · intro dotted
    have named : (FileTree.withoutSlashes (Files.pieces "frames")).getLast? ≠ some "." := by decide
    exact absurd dotted named
  · intro file member
    obtain ⟨⟨document, number⟩, listed, rfl⟩ := List.mem_map.mp member
    have inside := List.mem_zipIdx listed
    have fits : ∀ n < 4,
        (Files.join "frames" (frameFileName n)).utf8ByteSize ≤ FileTree.maxPathSize ∧
          (frameFileName n).utf8ByteSize ≤ FileTree.maxNameSize := by decide +kernel
    obtain ⟨short, below⟩ := fits number (by omega)
    refine ⟨_, (write_frame_iff made_plantTree.stands).mpr
      ⟨short, below, .file document.toUTF8, ?_, rfl⟩⟩
    rw [List.singleton_append, bare_plantTree]
    rfl

/-- A frame lies where it was written. -/
theorem find?_plant_frame {documents : List String} {after : FileTree}
    (framed : Framed plantTree "frames" documents after) {frame : String × Nat}
    (listed : frame ∈ documents.zipIdx 1) :
    after.find? ["frames", frameFileName frame.2] = some (.file frame.1.toUTF8) := by
  obtain ⟨inner, made, standing, filled⟩ := framed
  obtain rfl := made_plantTree.unique standing
  obtain ⟨node, held, lies⟩ := filled.held _ (List.mem_map_of_mem listed)
  have bare : made.find? ["frames", frameFileName frame.2] = none := by
    rw [standing.find?_eq made_plantTree, bare_plantTree]
    rw [bare_plantTree]
    exact nofun
  rw [List.singleton_append] at held lies
  rw [bare] at held
  cases held
  exact lies

theorem place?_plant : plantTree.place? "plant.svg" = .ok ["plant.svg"] := by
  rfl

/-- Frames of a plant are written into a directory that was missing, and the plant into a file. -/
theorem plant_written :
    let chosen := ["--config", "draw.toml", "-n=1", "--start=3,4", "-pplant1"]
    let frames := (run (m := StateM FileTree) (chosen ++ ["--sequence", "frames"]) none).run
      plantTree
    let single := (run (m := StateM FileTree) (chosen ++ ["--output", "plant.svg"]) none).run
      plantTree
    ∃ (document : String) (documents : List String),
      renderPreset .plant1 plantSettings {} = .ok document ∧
      documents.length = 3 ∧ documents.getLast? = some document ∧
      (frames.1.exitCode = 0 ∧ frames.1.output = "" ∧ ∀ frame ∈ documents.zipIdx 1,
        frames.2.find? ["frames", frameFileName frame.2] = some (.file frame.1.toUTF8)) ∧
      single.1.exitCode = 0 ∧ single.1.output = "" ∧
        single.2.find? ["plant.svg"] = some (.file document.toUTF8) := by
  intro chosen frames single
  have framing : Means (chosen ++ ["--sequence", "frames"])
      { plantArguments with sequence := some "frames" } := Arguments.read_eq_ok_iff.mp rfl
  have drawing : Means (chosen ++ ["--output", "plant.svg"])
      { plantArguments with output := some "plant.svg" } := Arguments.read_eq_ok_iff.mp rfl
  obtain ⟨document, sequence, shown, framed, roomy⟩ :=
    (agrees_run framing none plantTree).delivered rfl rfl .plant1 _ _
      (ready_plantArguments none (some "frames"))
  obtain ⟨other, _, shown', drawn, writable⟩ :=
    (agrees_run drawing none plantTree).delivered rfl rfl .plant1 _ _
      (ready_plantArguments (some "plant.svg") none)
  obtain rfl : document = other := Except.ok.inj (shown.rendered.symm.trans shown'.rendered)
  obtain ⟨next, read⟩ := shown.framed
  have count := length_plant_frames read
  have last : sequence.toList.getLast? = some document := by
    cases ended : sequence.toList.getLast? with
    | none =>
        rw [List.getLast?_eq_none_iff.mp ended] at count
        cases count
    | some last => rw [shown.last last ended]
  have code := roomy (room_plantTree count)
  obtain ⟨silent, framed⟩ := framed code
  have code' := writable ⟨_, FileTree.write_eq_ok_iff.mpr ⟨_, _, place?_plant, rfl, rfl⟩⟩
  obtain ⟨silent', place, leads, filled⟩ := drawn code'
  cases place?_plant.symm.trans leads
  obtain ⟨node, held, lies⟩ := filled.held _ List.mem_cons_self
  cases held
  exact ⟨document, sequence.toList, shown.rendered, count, last,
    ⟨code, silent, fun frame listed => find?_plant_frame framed listed⟩, code', silent', lies⟩

end Frond.Cli
