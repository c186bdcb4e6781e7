import ReadableTrace.Log.Level

/-!
# Arguments

The program is called as

    clr-trace [--log-level LEVEL] render SNAPSHOT [--config PATH] [--show-hidden] [--no-line-info]
    clr-trace [--log-level LEVEL] decode NAME...

where the level may also stand behind the command. `CommandLine.ofArguments` reads the arguments
from left to right and refuses at the first that is wrong. The value of an option is looked at when
the next option, flag or value is met, or at the end; so an unknown argument comes before a wrong
value in front of it.
-/

namespace ReadableTrace

/-- What the program is asked to do. -/
inductive Command
  /-- Shows the trace in a snapshot file. -/
  | render (snapshot : String) (settings : Option String) (showHidden hideLocation : Bool)
  /-- Shows how names are decoded. -/
  | decode (names : List String)
  deriving DecidableEq

/-- A call of the program. -/
structure CommandLine where
  logFilter : Option Log.Filter
  command : Command
  deriving DecidableEq

namespace CommandLine

/-- Why arguments are refused, or what else they ask for. -/
inductive Refusal
  /-- Something that is needed is not there. -/
  | missingArgument
  /-- There is no such option, or no place for a value. -/
  | unknownArgument
  /-- A value is not allowed, or not there. -/
  | invalidValue
  /-- A flag has a value. -/
  | needlessValue
  /-- There is no such command. -/
  | unknownCommand
  /-- There is no command. -/
  | missingCommand
  /-- There is nothing at all. -/
  | nothingGiven
  /-- An option or flag is repeated. -/
  | repeatedArgument
  /-- Help is asked for. -/
  | helpWanted
  /-- The version is asked for. -/
  | versionWanted
  deriving DecidableEq

/-- The exit code of a refused call. Help and version are no failures. -/
def Refusal.exitCode : Refusal → Nat
  | helpWanted | versionWanted => 0
  | _ => 2

/-- Where arguments stand: in front of the command, or behind it. -/
inductive Section
  | front
  | render
  | decode
  deriving DecidableEq

/-- The section behind a command. -/
def Section.ofCommand? : String → Option Section
  | "render" => some .render
  | "decode" => some .decode
  | _ => none

/-- Options that take a value. -/
inductive ValueOption
  | logLevel
  | settings
  deriving DecidableEq

/-- What has been met and not been looked at yet. -/
inductive Waiting
  | nothing
  /-- An option without its value. -/
  | forValue (o : ValueOption)
  /-- An option with its value. -/
  | withValue (o : ValueOption) (value : String)
  /-- The path of the snapshot. -/
  | path (value : String)
  deriving DecidableEq

/-- What has been read of a section. -/
structure Given where
  logFilter : Option Log.Filter
  settings : Option String
  showHidden : Bool
  hideLocation : Bool
  values : List String
  waiting : Waiting
  deriving DecidableEq

namespace Given

/-- Nothing has been read. -/
def start : Given := ⟨none, none, false, false, [], .nothing⟩

/-- Looks at what is waiting. No option may come twice; its value has to be a level or a path. -/
def settle (g : Given) : Except Refusal Given :=
  match g.waiting with
  | .nothing => .ok g
  | .forValue _ => .error .invalidValue
  | .withValue .logLevel value =>
    if g.logFilter.isSome then .error .repeatedArgument
    else
      match Log.Filter.ofWord? value with
      | some f => .ok { g with logFilter := some f, waiting := .nothing }
      | none => .error .invalidValue
  | .withValue .settings value =>
    if g.settings.isSome then .error .repeatedArgument
    else if value.isEmpty then .error .invalidValue
    else .ok { g with settings := some value, waiting := .nothing }
  | .path value =>
    if value.isEmpty then .error .invalidValue else .ok { g with waiting := .nothing }

/-- An option, with its value if an equals sign joins them. -/
def takeOption (g : Given) (o : ValueOption) (attached : Option String) : Except Refusal Given := do
  let g ← g.settle
  match attached with
  | some value => settle { g with waiting := .withValue o value }
  | none => .ok { g with waiting := .forValue o }

/-- A flag that only asks for something. -/
def ask (g : Given) (r : Refusal) : Except Refusal Given := do
  let _ ← g.settle
  .error r

/-- A flag behind two dashes, or an option. -/
def takeLong (s : Section) (g : Given) (name : String) (attached : Option String) :
    Except Refusal Given :=
  match name, s with
  | "log-level", _ => g.takeOption .logLevel attached
  | "config", .render => g.takeOption .settings attached
  | "help", _ => if attached.isSome then .error .needlessValue else g.ask .helpWanted
  | "version", .front => if attached.isSome then .error .needlessValue else g.ask .versionWanted
  | "show-hidden", .render =>
    if attached.isSome then .error .needlessValue
    else do
      let g ← g.settle
      if g.showHidden then .error .repeatedArgument else .ok { g with showHidden := true }
  | "no-line-info", .render =>
    if attached.isSome then .error .needlessValue
    else do
      let g ← g.settle
      if g.hideLocation then .error .repeatedArgument else .ok { g with hideLocation := true }
  | _, _ => .error .unknownArgument

/-- A flag behind one dash. The first letter decides. -/
def takeShort (s : Section) (g : Given) (letter : Char) : Except Refusal Given :=
  match letter, s with
  | 'h', _ => g.ask .helpWanted
  | 'V', .front => g.ask .versionWanted
  | _, _ => .error .unknownArgument

/-- A value that belongs to no option. -/
def takeValue (s : Section) (g : Given) (afterDashes : Bool) (value : String) :
    Except Refusal Given :=
  match s with
  | .front =>
    if afterDashes && ((Section.ofCommand? value).isSome || value = "help") then
      .error .unknownArgument
    else .error .unknownCommand
  | .render =>
    if g.values.isEmpty then do
      let g ← g.settle
      .ok { g with values := [value], waiting := .path value }
    else .error .unknownArgument
  | .decode => do
    let g ← g.settle
    .ok { g with values := g.values ++ [value] }

end Given

/-- What the arguments behind the command `help` ask for. -/
def helpFor : List String → Refusal
  | [] => .helpWanted
  | [name] =>
    if (Section.ofCommand? name).isSome || name = "help" then .helpWanted else .unknownCommand
  | _ => .unknownCommand

/-- The name of an option behind its dashes, and the value that an equals sign joins to it. -/
def splitLong (body : List Char) : String × Option String :=
  match body.span (· ≠ '=') with
  | (name, _ :: value) => (String.ofList name, some (String.ofList value))
  | (name, []) => (String.ofList name, none)

/-- Whether an option waits for its value. -/
def Given.isExpecting (g : Given) : Bool :=
  match g.waiting with
  | .forValue _ => true
  | _ => false

/-- Reads the arguments of a section. Gives what was read with, in front of the command, the command
and the arguments behind it; what is waiting there is not looked at. -/
def readSection (s : Section) (g : Given) (afterDashes : Bool) :
    List String → Except Refusal (Given × Option (Section × List String))
  | [] => do
    let g ← g.settle
    .ok (g, none)
  | a :: rest =>
    if afterDashes then do readSection s (← g.takeValue s true a) true rest
    else
      match (if s = .front && !g.isExpecting then Section.ofCommand? a else none) with
      | some behind => .ok (g, some (behind, rest))
      | none =>
        if s = .front && !g.isExpecting && a = "help" then .error (helpFor rest)
        else
          match a.toList with
          | ['-', '-'] => readSection s g true rest
          | '-' :: '-' :: body =>
            let (name, attached) := splitLong body
            do readSection s (← g.takeLong s name attached) false rest
          | '-' :: letter :: _ => do readSection s (← g.takeShort s letter) false rest
          | _ =>
            match g.waiting with
            | .forValue o => readSection s { g with waiting := .withValue o a } false rest
            | _ => do readSection s (← g.takeValue s false a) false rest

/-- The command of a section that has been read. -/
def commandOf (s : Section) (g : Given) : Except Refusal Command :=
  match s, g.values with
  | .render, snapshot :: _ => .ok (.render snapshot g.settings g.showHidden g.hideLocation)
  | .decode, name :: names => .ok (.decode (name :: names))
  | _, _ => .error .missingArgument

/-- The call that arguments stand for. A level behind the command counts more than one in front. -/
def ofArguments (arguments : List String) : Except Refusal CommandLine := do
  let (front, command) ← readSection .front .start false arguments
  match command with
  | none => .error (if front.logFilter.isSome then .missingCommand else .nothingGiven)
  | some (s, rest) =>
    let (behind, _) ← readSection s .start false rest
    let command ← commandOf s behind
    let front ← front.settle
    .ok ⟨behind.logFilter.or front.logFilter, command⟩

end CommandLine

end ReadableTrace
