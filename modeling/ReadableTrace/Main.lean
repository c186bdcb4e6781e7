import ReadableTrace.CommandLine.Run

/-!
# The executable

The outer layer of the program: it looks up the files and variables that the program asks for, runs
`Program.run` on them, and prints and writes what that leaves behind.
-/

namespace ReadableTrace

open Files

/-- A tree with what is at a path. What is there but holds no text counts as a folder: it is there,
and it cannot be read. -/
def lookAt (t : Tree) (path : String) : IO Tree :=
  try
    pure (t.withFile path (← IO.FS.readFile path))
  catch _ =>
    try
      let _ ← IO.FS.realPath path
      pure (t.withFolder path)
    catch _ => pure t

/-- A variable that is set to something. -/
def valueOf? (name : String) : IO (Option String) := do
  pure ((← IO.getEnv name).filter (!·.isEmpty))

/-- The working directory. -/
def workingPlace : IO Place := do
  pure (((Path.ofText? (← IO.currentDir).toString).map (·.names)).getD [])

/-- What the program finds around it. -/
def environment (arguments : List String) : IO Environment := do
  let home ← valueOf? "HOME"
  let files ← (Program.paths arguments home).foldlM lookAt (.empty (← workingPlace))
  pure ⟨files, home, ← IO.getEnv "DEBUG_LEVEL"⟩

/-- Where the log is written. -/
def logPath : IO String := do
  pure (Path.join ((← valueOf? "TMPDIR").getD "/tmp") "clr_trace_debug.log")

/-- Prints and writes what a run leaves behind. A log that cannot be written is left out. -/
def deliver (o : Program.Outcome) : IO Unit := do
  (← IO.getStdout).putStr o.output
  (← IO.getStderr).putStr o.complaint
  match o.log with
  | none => pure ()
  | some text => try IO.FS.writeFile (← logPath) text catch _ => pure ()

end ReadableTrace

/-- The program. -/
def main (arguments : List String) : IO UInt32 := do
  let outcome := ReadableTrace.Program.run (← ReadableTrace.environment arguments) arguments
  ReadableTrace.deliver outcome
  pure (UInt32.ofNat outcome.exitCode)
