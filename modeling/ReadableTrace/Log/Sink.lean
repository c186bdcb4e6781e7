import ReadableTrace.Log.Event

/-!
# The log

`Sink` is the state of the log: what it keeps, and the file with the entries written so far.
Messages reach it in three ways: directly (`Sink.Step.write`), as reports, which are only worded if
their level is kept (`Sink.Step.report`), and as records (`Sink.Step.record`), which pass a filter in
front of the log and count only once the log is bridged to it. All of them end in `Sink.log`. The
file is opened, with a banner, when something is to be kept for the first time; it only grows.
-/

namespace ReadableTrace.Log

/-- An entry of the log file. -/
inductive Entry
  /-- Written when the file is opened. -/
  | banner (verbosity : Verbosity)
  /-- A message with its label and category. -/
  | message (label category text : String)
  deriving DecidableEq

/-- The text of an entry, without the time at which it was made. -/
def Entry.text : Entry → String
  | banner v =>
    let rule := String.ofList (List.replicate 80 '=')
    "\n" ++ rule ++ "\nclr-trace debug session started at (level=" ++ v.label ++ ")\n" ++ rule
  | message label category text => "[" ++ label ++ "] [" ++ category ++ "] " ++ text

/-- The state of the log. -/
structure Sink where
  /-- What is kept. -/
  verbosity : Verbosity
  /-- The filter in front of the log, which records have to pass. -/
  front : Filter
  /-- Whether records reach the log at all. -/
  isBridged : Bool
  /-- The entries of the file, once it is open. -/
  file : Option (List Entry)
  deriving DecidableEq

namespace Sink

/-- Something that is done to the log. -/
inductive Step
  /-- Sets what is kept. -/
  | setVerbosity (v : Verbosity)
  /-- Lets records through, and sets what is kept if a filter is given. -/
  | bridge (filter : Option Filter)
  /-- A direct message. -/
  | write (level : Verbosity) (category message : String)
  /-- A direct message that is only worded if it is kept. -/
  | report (level : Verbosity) (category message : String)
  /-- A record. -/
  | record (severity : Severity) (category message : String)

/-- Opens the file if something is to be kept and the file is not open yet. -/
def opened (s : Sink) : Sink :=
  match s.verbosity, s.file with
  | .off, _ => s
  | _, some _ => s
  | v, none => { s with file := some [.banner v] }

/-- Puts an entry at the end of the file, if it is open. -/
def append (s : Sink) (e : Entry) : Sink := { s with file := s.file.map (· ++ [e]) }

/-- The log of a new process, by the text of its environment variable. -/
def start (levelText : Option String) : Sink :=
  opened ⟨(levelText.map .ofText).getD .off, .off, false, none⟩

/-- Sets what is kept, and the filter in front accordingly. -/
def setVerbosity (s : Sink) (v : Verbosity) : Sink :=
  opened { s with verbosity := v, front := v.toFilter }

/-- Lets records through. -/
def bridge (s : Sink) (filter : Option Filter) : Sink :=
  let s := match filter with
    | some f => s.setVerbosity (.ofFilter f)
    | none => s
  { s with isBridged := true, front := s.verbosity.toFilter }

/-- Whether messages of a level are kept. Those without a level count as kept here. -/
def isEnabled (s : Sink) (level : Verbosity) : Bool := level ≤ s.verbosity

/-- Whether records of a severity are kept. -/
def keeps (s : Sink) (severity : Severity) : Bool :=
  s.isBridged && s.front.passes severity && s.isEnabled (.ofSeverity severity)

/-- The label of a direct message, five characters wide. -/
def labelOf : Verbosity → String
  | .off => ""
  | .error => Severity.error.label
  | .info => Severity.info.label
  | .debug => Severity.debug.label
  | .trace => Severity.trace.label

/-- A message of a level. -/
def log (s : Sink) (level : Verbosity) (label category message : String) : Sink :=
  if s.verbosity.admits level then s.append (.message label category message) else s

/-- A direct message. -/
def write (s : Sink) (level : Verbosity) (category message : String) : Sink :=
  s.log level (labelOf level) category message

/-- A direct message that is only worded if it is kept. -/
def report (s : Sink) (level : Verbosity) (category message : String) : Sink :=
  if s.isEnabled level then s.write level category message else s

/-- A record. -/
def record (s : Sink) (severity : Severity) (category message : String) : Sink :=
  if s.keeps severity then s.log (.ofSeverity severity) severity.label category message else s

/-- Does a step. -/
def step (s : Sink) : Step → Sink
  | .setVerbosity v => s.setVerbosity v
  | .bridge f => s.bridge f
  | .write level category message => s.write level category message
  | .report level category message => s.report level category message
  | .record severity category message => s.record severity category message

/-- How an event reaches the log. -/
def stepOf (e : Event) : Step :=
  match e with
  | .settingsUsed _ | .traceReady _ => .report (.ofSeverity e.severity) e.category e.message
  | _ => .record e.severity e.category e.message

/-- The log after some events. -/
def noteAll (s : Sink) (events : List Event) : Sink :=
  events.foldl (fun s e => s.step (stepOf e)) s

/-- The text of the file, if it is open. -/
def text? (s : Sink) : Option String :=
  s.file.map fun entries => String.join (entries.map (·.text ++ "\n"))

end Sink

end ReadableTrace.Log
