import ReadableTrace.Catalog.Ref
import ReadableTrace.Frame.Style
import ReadableTrace.Settings.Basic

/-!
# Events

Everything that the library reports about its own work is a constructor of `Event`. An event has a
severity, a category and a message, which together make up its record in the log.
-/

namespace ReadableTrace.Log

/-- Something that happened while a trace was made. -/
inductive Event
  /-- A type of this full name is shown by a keyword. -/
  | keywordUsed (fullName keyword : String)
  /-- A type of this full name is shown by its simple name. -/
  | frameworkType (fullName : String)
  /-- The shape of a type leads back to the type. -/
  | shapeCycle (type : TypeRef)
  /-- A style claims a routine. -/
  | claimed (style : Style) (routine : RoutineRef)
  /-- No style claims the routine, which has this name. -/
  | unclaimed (routine : RoutineRef) (name : String)
  /-- A routine is about to be shown in a style. -/
  | rendering (routine : RoutineRef) (style : Style)
  /-- The types around a type lead back to one of them. -/
  | enclosingCycle (start : TypeRef)
  /-- No field holds the lambda. -/
  | noDelegateField (routine : RoutineRef)
  /-- No method is the source of the state machine. -/
  | noAsyncMethod (machine : TypeRef)
  /-- Several methods are marked as the source of the state machine. -/
  | manyAsyncMethods (count : Nat) (machine : TypeRef)
  /-- The frame at a position is left out, its routine, of this name, being hidden. -/
  | hiddenDropped (position : Nat) (name : String)
  /-- All frames are done. -/
  | framesDone (shown given : Nat)
  /-- A snapshot was read from a file. -/
  | snapshotLoaded (path : String) (types routines frames : Nat)
  /-- Where settings are looked for. -/
  | settingsPath (path : String)
  /-- There is no settings file at the usual place. -/
  | settingsAbsent
  /-- Settings are about to be read from a file. -/
  | settingsLoading (path : String)
  /-- Settings were written to a file. -/
  | settingsSaved (path : String)
  /-- The settings that are in use. -/
  | settingsUsed (settings : Settings)
  /-- A trace of so many frames is ready. -/
  | traceReady (frames : Nat)
  /-- The program is done. -/
  | finished
  deriving DecidableEq

namespace Event

/-- How serious an event is. -/
def severity : Event → Severity
  | keywordUsed _ _ | frameworkType _ | claimed _ _ => .trace
  | shapeCycle _ | unclaimed _ _ | enclosingCycle _ | noDelegateField _ | noAsyncMethod _
  | manyAsyncMethods _ _ => .warn
  | rendering _ _ | hiddenDropped _ _ | framesDone _ _ | snapshotLoaded _ _ _ _
  | traceReady _ => .debug
  | settingsPath _ | settingsAbsent | settingsLoading _ | settingsSaved _ | settingsUsed _
  | finished => .info

/-- The part of the program that an event belongs to. -/
def category : Event → String
  | keywordUsed _ _ | frameworkType _ | shapeCycle _ => "clr_trace::alias::type_alias"
  | claimed _ _ => "clr_trace::serializers"
  | unclaimed _ _ | rendering _ _ => "clr_trace::serializers::dispatcher"
  | enclosingCycle _ | noDelegateField _ => "clr_trace::serializers::lambda"
  | noAsyncMethod _ | manyAsyncMethods _ _ => "clr_trace::serializers::async_state"
  | hiddenDropped _ _ | framesDone _ _ => "clr_trace::trace::renderer"
  | snapshotLoaded _ _ _ _ => "clr_trace::snapshot"
  | settingsPath _ | settingsAbsent | settingsLoading _ | settingsSaved _ =>
    "clr_trace_config::config"
  | settingsUsed _ => "CONFIG"
  | traceReady _ => "RENDER"
  | finished => "clr_trace"

/-- What an event says. -/
def message : Event → String
  | keywordUsed fullName keyword => "alias " ++ fullName ++ ": keyword " ++ keyword
  | frameworkType fullName => "alias " ++ fullName ++ ": framework type"
  | shapeCycle t => "type #" ++ t.text ++ " is part of a shape cycle"
  | claimed style r => style.label ++ " claims routine #" ++ r.text
  | unclaimed r name => "no serializer for routine #" ++ r.text ++ " '" ++ name ++ "'"
  | rendering r style =>
    "rendering Some(RoutineHandle(" ++ r.text ++ ")) with " ++ style.label ++ " serializer"
  | enclosingCycle t => "enclosing types of #" ++ t.text ++ " form a cycle"
  | noDelegateField r => "no delegate field targets lambda routine #" ++ r.text
  | noAsyncMethod m => "no async method owns state machine #" ++ m.text
  | manyAsyncMethods n m =>
    Decimal.text n ++ " async methods claim state machine #" ++ m.text
  | hiddenDropped i name =>
    "frame " ++ Decimal.text i ++ ": dropping hidden routine '" ++ name ++ "'"
  | framesDone shown given =>
    "rendered " ++ Decimal.text shown ++ " of " ++ Decimal.text given ++ " frames"
  | snapshotLoaded path types routines frames =>
    "loaded snapshot " ++ path ++ ": " ++ Decimal.text types ++ " types, "
      ++ Decimal.text routines ++ " routines, " ++ Decimal.text frames ++ " frames"
  | settingsPath path => "Config path: " ++ Text.quoted path
  | settingsAbsent => "No config file found, using defaults"
  | settingsLoading path => "Loading config from " ++ Text.quoted path
  | settingsSaved path => "Saved config to " ++ Text.quoted path
  | settingsUsed s => "using config " ++ s.describe
  | traceReady n => Decimal.text n ++ " frames rendered"
  | finished => "clr-trace 0.1.0 finished"

end Event

end ReadableTrace.Log
