import ReadableTrace.CommandLine.Arguments
import ReadableTrace.Log.Sink
import ReadableTrace.Name
import ReadableTrace.Settings.Store
import ReadableTrace.Snapshot.Store
import ReadableTrace.Trace

/-!
# The program

`CommandLine.run` does what a call asks for and gives the text to be printed with the log.
`Program.run` is the whole program, from its arguments to its exit code.
-/

namespace ReadableTrace

open Log Files

/-- What the program finds around it. -/
structure Environment where
  files : Tree
  /-- The home folder. -/
  home : Option String
  /-- The text of the environment variable that says what is logged. -/
  levelText : Option String

namespace CommandLine

/-- Why a call fails. -/
inductive Failure
  | settings (fault : Settings.Fault)
  | snapshot (fault : Snapshot.Fault)
  /-- The trace in a file cannot be shown. -/
  | trace (path : String) (fault : Fault)
  /-- A name cannot be decoded. -/
  | name (raw : String) (fault : Fault)
  deriving DecidableEq

/-- What is said of a failure. -/
def Failure.message : Failure → String
  | settings (.flawed flaw) => flaw.report
  | settings .malformed => "YAML parse error in config"
  | settings .unreadable => "I/O error reading config"
  | snapshot .unreadable => "failed to read snapshot"
  | snapshot .malformed => "failed to parse snapshot"
  | trace path fault => "failed to render " ++ path ++ ": " ++ fault.message
  | name raw fault => "cannot decode " ++ Text.quoted raw ++ ": " ++ fault.message

/-! ## Decoding names -/

/-- A line that shows how a name is decoded. -/
def decodedLine (raw : String) (d : Name.Decoded) : String :=
  raw ++ " => logical=" ++ d.logical ++ " nested=" ++ (d.inner.map (·.name)).getD "-"
    ++ " kind=" ++ ((d.inner.bind (·.kind)).map (·.label)).getD "-"

/-- The lines for some names. -/
def decodeNames (names : List String) : Except Failure String :=
  ("\n".intercalate ·) <$> names.mapM fun raw =>
    match Name.decode raw with
    | .ok d => .ok (decodedLine raw d)
    | .error fault => .error (.name raw fault)

/-! ## Showing a trace -/

/-- The settings for a call: from the given file, or from the usual place. -/
def settingsFor (env : Environment) (path : Option String) : Logged Settings.Fault Settings := do
  let s ← (match path with
    | some path => Settings.load env.files path
    | none => Settings.loadUsual env.files env.home)
  Logged.note (.settingsUsed s)
  pure s

/-- Settings with the flags of a call. -/
def withFlags (s : Settings) (showHidden hideLocation : Bool) : Settings :=
  { s with
    showHidden := s.showHidden || showHidden
    showLocation := s.showLocation && !hideLocation }

/-- The text of the trace in a snapshot file. -/
def renderFile (files : Tree) (path : String) (s : Settings) : Logged Failure String := do
  let snapshot ← (Snapshot.load files path).mapError .snapshot
  let trace ← ((Renderer.ofSettings s).render snapshot.catalog snapshot.frames).mapError
    (.trace path)
  Logged.note (.traceReady trace.frames.length)
  pure trace.text

/-- The log once the settings are known: they say what is logged unless the call or the environment
variable does. -/
def sinkFor (env : Environment) (cl : CommandLine) (s : Settings) (sink : Sink) : Sink :=
  if cl.logFilter.isNone && env.levelText.isNone then
    match Verbosity.ofFilter s.logFilter with
    | .off => sink
    | v => sink.setVerbosity v
  else sink

/-- The paths that a call looks at, by the home folder. -/
def paths (cl : CommandLine) (home : Option String) : List String :=
  match cl.command with
  | .render snapshot settings _ _ => [settings.getD (Settings.usualPath home), snapshot]
  | .decode _ => []

/-- Does what a call asks for. -/
def run (env : Environment) (cl : CommandLine) (sink : Sink) : Except Failure String × Sink :=
  let sink := sink.bridge cl.logFilter
  match cl.command with
  | .decode names => (decodeNames names, sink)
  | .render snapshot path showHidden hideLocation =>
    let loaded := settingsFor env path
    let sink := sink.noteAll loaded.events
    match loaded.outcome with
    | .error fault => (.error (.settings fault), sink)
    | .ok s =>
      let sink := sinkFor env cl s sink
      let shown := renderFile env.files snapshot (withFlags s showHidden hideLocation)
      (shown.outcome, sink.noteAll shown.events)

end CommandLine

namespace Program

/-- The name and version of the program. -/
def version : String := "clr-trace 0.1.0"

/-- How the program is called. -/
def usage : String :=
  "Usage: clr-trace [--log-level LEVEL] render SNAPSHOT [--config PATH] [--show-hidden]"
    ++ " [--no-line-info]\n       clr-trace [--log-level LEVEL] decode NAME..."

/-- What a run of the program leaves behind. -/
structure Outcome where
  exitCode : Nat
  /-- What is printed as the result. -/
  output : String
  /-- What is printed about a failure. -/
  complaint : String
  /-- The log file, if there is one. -/
  log : Option String

/-- A refused call. -/
def refused : CommandLine.Refusal → Outcome
  | .helpWanted => ⟨0, usage ++ "\n", "", none⟩
  | .versionWanted => ⟨0, version ++ "\n", "", none⟩
  | r => ⟨r.exitCode, "", usage ++ "\n", none⟩

/-- The paths that the program looks at, by its arguments and the home folder. -/
def paths (arguments : List String) (home : Option String) : List String :=
  match CommandLine.ofArguments arguments with
  | .error _ => []
  | .ok cl => cl.paths home

/-- Runs the program. -/
def run (env : Environment) (arguments : List String) : Outcome :=
  match CommandLine.ofArguments arguments with
  | .error r => refused r
  | .ok cl =>
    match cl.run env (Sink.start env.levelText) with
    | (.error failure, sink) => ⟨1, "", "Error: " ++ failure.message ++ "\n", sink.text?⟩
    | (.ok text, sink) =>
      let sink := sink.noteAll [.finished]
      ⟨0, if text.isEmpty then "" else text ++ "\n", "", sink.text?⟩

end Program

end ReadableTrace
