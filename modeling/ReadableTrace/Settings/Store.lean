import ReadableTrace.Files.Tree
import ReadableTrace.Log.Logged
import ReadableTrace.Settings.Printer
import ReadableTrace.Settings.Reader

/-!
# Settings in files

`Settings.load` reads settings from a file and `Settings.loadUsual` from the usual place, where
there need not be a file. `Settings.save` writes a new file beside the old one and then puts it in
its place, so that at no time there is half a file.
-/

namespace ReadableTrace.Settings

open Log Files

/-- The folder of the settings file, in a home folder. -/
def usualFolder (home : Option String) : String :=
  match home with
  | some h => Path.join (Path.join h ".config") "clr-trace"
  | none => "."

/-- The path of the settings file. -/
def usualPath (home : Option String) : String := Path.join (usualFolder home) "config.yaml"

/-- The settings in a file. -/
def load (t : Tree) (path : String) : Logged Fault Settings := do
  Logged.note (.settingsLoading path)
  match t.read? path with
  | none => Logged.fail .unreadable
  | some text => Logged.lift (ofText text)

/-- The settings at the usual place, or the usual settings if there is nothing. -/
def loadUsual (t : Tree) (home : Option String) : Logged Fault Settings := do
  let path := usualPath home
  Logged.note (.settingsPath path)
  if t.has path then load t path
  else
    Logged.note .settingsAbsent
    pure standard

/-- Why settings cannot be saved. -/
inductive SaveFault
  /-- The settings are not sensible. -/
  | flawed (flaw : Flaw)
  /-- A folder or file cannot be made. -/
  | unwritable
  deriving DecidableEq

/-- The file that is written first. -/
def temporary (p : Path) : Path := p.withEnding "yaml.tmp"

/-- What is done to save a document at a path. -/
def saveSteps (document : String) (p : Path) : List Tree.Step :=
  (match p.parent? with
    | some folder => [.makeFolders folder]
    | none => [])
    ++ [.write (temporary p) document, .rename (temporary p) p]

/-- Saves settings as the document that `write` makes of them. Gives the tree as it is left, also
after a failure. -/
def saveAs (write : Settings → String) (s : Settings) (t : Tree) (path : String) :
    Tree × Logged SaveFault Unit :=
  match s.flaw? with
  | some flaw => (t, Logged.fail (.flawed flaw))
  | none =>
    match Path.ofText? path with
    | none => (t, Logged.fail .unwritable)
    | some p =>
      match t.run (saveSteps (write s) p) with
      | (t, true) => (t, Logged.note (.settingsSaved path))
      | (t, false) => (t, Logged.fail .unwritable)

/-- Saves settings. -/
def save : Settings → Tree → String → Tree × Logged SaveFault Unit := saveAs document

end ReadableTrace.Settings
