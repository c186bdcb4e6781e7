/-!
# Paths

A path is what stands between the slashes of its text. Empty pieces and single dots mean nothing;
the others are names, read from the root or from the working directory, and two dots lead to the
folder around.
-/

namespace ReadableTrace.Files

/-- A path. -/
structure Path where
  /-- What stands between the slashes. -/
  pieces : List String
  deriving DecidableEq

namespace Path

/-- A text cut at its slashes. -/
def cut : List Char → List (List Char)
  | [] => [[]]
  | c :: r =>
    if c = '/' then [] :: cut r
    else
      match cut r with
      | [] => [[c]]
      | p :: ps => (c :: p) :: ps

/-- The path that a text stands for. The empty text stands for none, and neither does one that
contains a zero. -/
def ofText? (text : String) : Option Path :=
  if text.isEmpty || text.toList.contains '\x00' then none
  else some ⟨(cut text.toList).map String.ofList⟩

/-- Whether a piece of a path names nothing. -/
def isVoid (piece : String) : Bool := piece = "" || piece = "."

/-- The names that a path leads through. -/
def names (p : Path) : List String := p.pieces.filter (!isVoid ·)

/-- Whether a path leads from the root. -/
def isAbsolute (p : Path) : Bool :=
  match p.pieces with
  | "" :: _ :: _ => true
  | _ => false

/-- Whether the text of a path ends like that of a folder. -/
def endsOpen (p : Path) : Bool := p.pieces.getLast?.any isVoid

/-- How many bytes a path takes up. Behind each piece is a slash or the end. -/
def size (p : Path) : Nat := p.pieces.foldr (fun piece n => piece.utf8ByteSize + 1 + n) 0

/-- How many bytes a path may take up. -/
def maxSize : Nat := 4096

/-- Whether a path is short enough to be followed. -/
def fits (p : Path) : Bool := p.size ≤ maxSize

/-- How many bytes a name may have. -/
def maxNameSize : Nat := 255

/-- Whether a file or folder can have a name. -/
def isName (name : String) : Bool := name.utf8ByteSize ≤ maxNameSize

/-! ## Paths from others -/

/-- The pieces in front of the last name, and that name. -/
def splitLast? : List String → Option (List String × String)
  | [] => none
  | piece :: rest =>
    match splitLast? rest with
    | some (front, name) => some (piece :: front, name)
    | none => if isVoid piece then none else some ([], piece)

/-- The path of the folder around; a path without names has none. -/
def parent? (p : Path) : Option Path :=
  (splitLast? p.pieces).map fun (front, _) => ⟨front ++ [""]⟩

/-- A name without its last dot and what follows, unless it begins with that dot. -/
def stem (name : String) : String :=
  match name.toList.reverse.dropWhile (· ≠ '.') with
  | [] | ['.'] => name
  | _ :: front => String.ofList front.reverse

/-- A name with another ending. What follows the last dot is taken off first; if that leaves two
dots, they lead to the folder around, which gets no ending. -/
def nameWithEnding (name ending : String) : String :=
  if stem name = "." then ".." else stem name ++ "." ++ ending

/-- A path whose last name has another ending. A path without names stays as it is. -/
def withEnding (p : Path) (ending : String) : Path :=
  match splitLast? p.pieces with
  | none => p
  | some (front, name) => ⟨front ++ [nameWithEnding name ending]⟩

/-- A name behind a folder. -/
def join (folder name : String) : String :=
  if folder.isEmpty || folder.toList.getLast? = some '/' then folder ++ name
  else folder ++ "/" ++ name

end Path

end ReadableTrace.Files
