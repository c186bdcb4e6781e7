import ReadableTrace.Text.Blank
import ReadableTrace.Text.Decimal

/-!
# Levels of the log

* `Severity` is what a single record carries.
* `Filter` is what a user asks for: nothing, or all records from a severity up.
* `Verbosity` is what the log file keeps. It has no level of its own for warnings: they are kept
  from `error` on.

`Verbosity.ofFilter` and `Verbosity.toFilter` go back and forth, and `Verbosity.ofFilter_toFilter`
says that nothing is lost on the way to a filter.
-/

namespace ReadableTrace.Log

/-- How serious a record is. -/
inductive Severity
  | error
  | warn
  | info
  | debug
  | trace
  deriving DecidableEq

/-- Which records a user asks for. -/
inductive Filter
  | off
  | error
  | warn
  | info
  | debug
  | trace
  deriving DecidableEq

/-- Which records the log file keeps. -/
inductive Verbosity
  | off
  | error
  | info
  | debug
  | trace
  deriving DecidableEq

namespace Severity

/-- The label of a record in the file, five characters wide. -/
def label : Severity → String
  | error => "ERROR"
  | warn => "WARN "
  | info => "INFO "
  | debug => "DEBUG"
  | trace => "TRACE"

/-- The position of a severity, the gravest first. -/
def rank : Severity → Nat
  | error => 1
  | warn => 2
  | info => 3
  | debug => 4
  | trace => 5

end Severity

namespace Filter

/-- The position of a filter, from nothing to everything. -/
def rank : Filter → Nat
  | off => 0
  | error => 1
  | warn => 2
  | info => 3
  | debug => 4
  | trace => 5

/-- The word for a filter in settings and on the command line. -/
def word : Filter → String
  | off => "off"
  | error => "error"
  | warn => "warn"
  | info => "info"
  | debug => "debug"
  | trace => "trace"

/-- The name of a filter in reports. -/
def label : Filter → String
  | off => "Off"
  | error => "Error"
  | warn => "Warn"
  | info => "Info"
  | debug => "Debug"
  | trace => "Trace"

/-- The filters, from nothing to everything. -/
def all : List Filter := [off, error, warn, info, debug, trace]

/-- The filter that a word stands for. Words are told apart by case. -/
def ofWord? (w : String) : Option Filter := all.find? (·.word == w)

/-- Whether a filter lets a record of this severity pass. -/
def passes (f : Filter) (s : Severity) : Bool := s.rank ≤ f.rank

theorem ofWord?_word (f : Filter) : ofWord? f.word = some f := by
  cases f <;> decide

end Filter

namespace Verbosity

/-- The position of a verbosity, from nothing to everything, which is also its number. -/
def rank : Verbosity → Nat
  | off => 0
  | error => 1
  | info => 2
  | debug => 3
  | trace => 4

/-- The name of a verbosity in reports. -/
def label : Verbosity → String
  | off => "Off"
  | error => "Error"
  | info => "Info"
  | debug => "Debug"
  | trace => "Trace"

instance : LE Verbosity := ⟨fun a b => a.rank ≤ b.rank⟩

instance (a b : Verbosity) : Decidable (a ≤ b) := inferInstanceAs (Decidable (a.rank ≤ b.rank))

/-- The verbosity that a filter asks for. Warnings come with the errors. -/
def ofFilter : Filter → Verbosity
  | .off => off
  | .error | .warn => error
  | .info => info
  | .debug => debug
  | .trace => trace

/-- The weakest filter that a verbosity needs. -/
def toFilter : Verbosity → Filter
  | off => .off
  | error => .warn
  | info => .info
  | debug => .debug
  | trace => .trace

/-- The verbosity from which on a record is kept. -/
def ofSeverity : Severity → Verbosity
  | .error | .warn => error
  | .info => info
  | .debug => debug
  | .trace => trace

/-- Whether a message of level `m` is written: it has a level, and the file keeps that level. -/
def admits (v m : Verbosity) : Bool := m ≠ off && m ≤ v

/-- The verbosity that the text of an environment variable asks for: a number from 1 to 4 in
decimal, a plus sign, zeros and white space around it being allowed; anything else is `off`. -/
def ofText (text : String) : Verbosity :=
  let body := match Text.trim text.toList with
    | '+' :: r => r
    | r => r
  if body.isEmpty || !body.all Decimal.isDigit then off
  else match Decimal.value body with
    | 1 => error
    | 2 => info
    | 3 => debug
    | 4 => trace
    | _ => off

theorem ofFilter_toFilter (v : Verbosity) : ofFilter v.toFilter = v := by
  cases v <;> rfl

/-- A filter lets through exactly the records that the verbosity it stands for keeps. -/
theorem passes_toFilter (v : Verbosity) (s : Severity) :
    v.toFilter.passes s = decide (ofSeverity s ≤ v) := by
  cases v <;> cases s <;> decide

end Verbosity

end ReadableTrace.Log
