import ReadableTrace.Log.Level
import ReadableTrace.Text.Quoted

/-!
# Settings

What a user can set about the trace and the log, the values used when nothing is set, and which
values are sensible (`Settings.check`).
-/

namespace ReadableTrace

/-- What a user can set. -/
structure Settings where
  /-- Written in front of every frame. -/
  frameLead : String
  /-- Written between two frames, and never after the last. -/
  separator : String
  /-- Whether frames tell where in the source they are. -/
  showLocation : Bool
  /-- Whether routines are shown that are marked as hidden. -/
  showHidden : Bool
  /-- How the full names of the framework's own types begin. These are shown by their simple
  names. -/
  frameworkLead : String
  /-- What is logged. -/
  logFilter : Log.Filter
  deriving DecidableEq

namespace Settings

/-- What is used when nothing is set. -/
def standard : Settings where
  frameLead := "   at "
  separator := "\n"
  showLocation := true
  showHidden := false
  frameworkLead := "System."
  logFilter := .off

/-- Why settings are refused. -/
inductive Flaw
  | emptySeparator
  | blankFrameworkLead
  /-- The text should end with a dot. -/
  | undottedFrameworkLead (text : String)
  deriving DecidableEq

/-- What a flaw is called. -/
def Flaw.message : Flaw → String
  | emptySeparator => "line_separator must not be empty"
  | blankFrameworkLead => "system_namespace_prefix must not be blank"
  | undottedFrameworkLead text => "system_namespace_prefix '" ++ text ++ "' must end with '.'"

/-- The first flaw of some settings, if they have one. -/
def flaw? (s : Settings) : Option Flaw :=
  if s.separator.isEmpty then some .emptySeparator
  else if Text.isBlank s.frameworkLead then some .blankFrameworkLead
  else if s.frameworkLead.toList.getLast? ≠ some '.' then
    some (.undottedFrameworkLead s.frameworkLead)
  else none

/-- Why settings cannot be had. -/
inductive Fault
  /-- The file cannot be read. -/
  | unreadable
  /-- The text is not a mapping with the right values. -/
  | malformed
  /-- The settings are not sensible. -/
  | flawed (flaw : Flaw)
  deriving DecidableEq

/-- What is said of a flaw in settings that were given. -/
def Flaw.report (f : Flaw) : String := "Config validation error: " ++ f.message

/-- A truth value in reports. -/
def flag (b : Bool) : String := if b then "true" else "false"

/-- Settings as the log shows them. -/
def describe (s : Settings) : String :=
  "TraceConfig \x7b frame_prefix: " ++ Text.quoted s.frameLead
    ++ ", line_separator: " ++ Text.quoted s.separator
    ++ ", include_line_info: " ++ flag s.showLocation
    ++ ", show_hidden_frames: " ++ flag s.showHidden
    ++ ", system_namespace_prefix: " ++ Text.quoted s.frameworkLead
    ++ ", log_level: " ++ s.logFilter.label ++ " \x7d"

end Settings

end ReadableTrace
