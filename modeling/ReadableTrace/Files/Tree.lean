import ReadableTrace.Files.Path

/-!
# A tree of files

`Tree` holds the folders and files that a program sees. Files are read by the text of a path
(`Tree.read?`) and changed by single steps, each of which is done whole or not at all
(`Tree.step?`).
-/

namespace ReadableTrace.Files

/-- Where a file or folder is: the names from the root on. -/
abbrev Place := List String

/-- Folders and files. -/
structure Tree where
  /-- The working directory. -/
  here : Place
  folders : List Place
  files : List (Place × String)
  deriving DecidableEq

namespace Tree

/-- The tree with nothing but a working directory. -/
def empty (here : Place) : Tree := ⟨here, [], []⟩

/-- Whether a folder is at a place. The folders around the working directory, around other folders
and around files are there too. -/
def isFolder (t : Tree) (p : Place) : Bool :=
  p.isPrefixOf t.here || (t.folders.any fun q => p.isPrefixOf q)
    || (t.files.any fun f => p != f.1 && p.isPrefixOf f.1)

/-- The contents of the file at a place. -/
def file? (t : Tree) (p : Place) : Option String := t.files.lookup p

/-- The place that a name leads to from another. The root leads back to itself. -/
def next (p : Place) (name : String) : Place :=
  if name = ".." then p.dropLast else p ++ [name]

/-- Follows names from a place on. Every name but the last has to be that of a folder, and the last
has to be one that a file or folder can have. -/
def follow? (t : Tree) (p : Place) : List String → Option Place
  | [] => some p
  | name :: rest =>
    if t.isFolder p && Path.isName name then t.follow? (next p name) rest else none

/-- Where a path starts. -/
def origin (t : Tree) (p : Path) : Place := if p.isAbsolute then [] else t.here

/-- The place that a path leads to, unless it is too long. -/
def resolve? (t : Tree) (p : Path) : Option Place :=
  if p.fits then t.follow? (t.origin p) p.names else none

/-- The contents of the file that a text leads to. -/
def read? (t : Tree) (text : String) : Option String := do
  let p ← Path.ofText? text
  if p.endsOpen then none else t.file? (← t.resolve? p)

/-- Whether a text leads to a file or folder. -/
def has (t : Tree) (text : String) : Bool :=
  match Path.ofText? text with
  | none => false
  | some p =>
    match t.resolve? p with
    | none => false
    | some place => t.isFolder place || (!p.endsOpen && (t.file? place).isSome)

/-! ## Making a tree -/

/-- The places that names lead through. -/
def places (p : Place) : List String → List Place
  | [] => []
  | name :: rest => next p name :: places (next p name) rest

/-- A tree with one more folder. -/
def withFolder (t : Tree) (text : String) : Tree :=
  match Path.ofText? text with
  | none => t
  | some p => { t with folders := t.folders ++ places (t.origin p) p.names }

/-- A tree with one more file. -/
def withFile (t : Tree) (text contents : String) : Tree :=
  match Path.ofText? text with
  | none => t
  | some p =>
    let places := places (t.origin p) p.names
    match places.getLast? with
    | none => t
    | some place =>
      { t with
        folders := t.folders ++ places.dropLast
        files := t.files ++ [(place, contents)] }

/-! ## Changes -/

/-- A tree with a file taken away. -/
def erase (t : Tree) (p : Place) : Tree := { t with files := t.files.filter (·.1 != p) }

/-- A tree with new contents of a file. -/
def put (t : Tree) (p : Place) (contents : String) : Tree :=
  { t with files := (t.erase p).files ++ [(p, contents)] }

/-- A single change. -/
inductive Step
  /-- Makes a folder and the folders around it, where they are not there yet. -/
  | makeFolders (path : Path)
  /-- Writes a file. -/
  | write (path : Path) (contents : String)
  /-- Gives a file another path, in place of the file that is there. -/
  | rename (source target : Path)

/-- Where a file may be written: in a folder, and not in place of one. -/
def writable? (t : Tree) (p : Path) : Option Place := do
  let place ← t.resolve? p
  if p.endsOpen || t.isFolder place || !t.isFolder place.dropLast then none else some place

/-- Makes folders along a path. -/
def makeAlong (t : Tree) (p : Place) : List String → Option Tree
  | [] => some t
  | name :: rest =>
    let place := next p name
    if (t.file? place).isSome || !Path.isName name then none
    else if t.isFolder place then t.makeAlong place rest
    else { t with folders := t.folders ++ [place] }.makeAlong place rest

/-- Does a step; nothing is done if that fails. -/
def step? (t : Tree) : Step → Option Tree
  | .makeFolders p => if p.fits then t.makeAlong (t.origin p) p.names else none
  | .write p contents => (t.writable? p).map fun place => t.put place contents
  | .rename source target => do
    let old ← t.resolve? source
    let contents ← t.file? old
    let place ← t.writable? target
    some ((t.erase old).put place contents)

/-- Does steps up to the first that fails. Gives the tree that is left and whether all were done. -/
def run (t : Tree) : List Step → Tree × Bool
  | [] => (t, true)
  | s :: rest =>
    match t.step? s with
    | some t => t.run rest
    | none => (t, false)

end Tree

end ReadableTrace.Files
