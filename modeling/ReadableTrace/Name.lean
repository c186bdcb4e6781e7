import ReadableTrace.Fault
import ReadableTrace.Text.Blank

/-!
# Names that a compiler makes up

A compiler that moves code into a routine of its own making names the routine
`<Outer>tag__Inner|ordinal`: `Outer` is where the code was written, the letter `tag` says why it
was moved, and the rest is optional. `Name.decode` takes such a name apart; any other name stands
for itself. In both parts an arity suffix, which is a grave accent and what follows it, is dropped
(`Name.dropArity`).
-/

namespace ReadableTrace.Name

/-- Why a name was made up. -/
inductive Kind
  /-- Tag `b`: the body of a lambda or closure. -/
  | closure
  /-- Tag `g`: a local function. -/
  | localFunction
  /-- Tag `k`: the field behind an automatic property. -/
  | backingField
  deriving DecidableEq

/-- The kind as reports show it. -/
def Kind.label : Kind → String
  | closure => "ClosureMethod"
  | localFunction => "LocalFunction"
  | backingField => "AutoPropertyBackingField"

/-- The kind that a tag stands for. -/
def Kind.ofTag? : List Char → Option Kind
  | ['b'] => some closure
  | ['g'] => some localFunction
  | ['k'] => some backingField
  | _ => none

/-- The part of a made-up name that follows the marker. -/
structure Inner where
  name : String
  kind : Option Kind
  deriving DecidableEq

/-- A name taken apart. -/
structure Decoded where
  logical : String
  inner : Option Inner
  deriving DecidableEq

/-- The inner name, if there is one and it is not blank. -/
def Decoded.nested (d : Decoded) : Option String := Text.nonBlank (d.inner.map (·.name))

/-! ## Cutting a text -/

/-- What precedes the first `c` and what follows it. -/
def cut? (c : Char) : List Char → Option (List Char × List Char)
  | [] => none
  | d :: r => if d = c then some ([], r) else (cut? c r).map fun p => (d :: p.1, p.2)

/-- What follows the last `c`, or all of the text. -/
def afterLast (c : Char) (s : List Char) : List Char :=
  match cut? c s.reverse with
  | some (back, _) => back.reverse
  | none => s

/-- What precedes the last `c`, or all of the text. -/
def beforeLast (c : Char) (s : List Char) : List Char :=
  match cut? c s.reverse with
  | some (_, front) => front.reverse
  | none => s

/-- What precedes the first marker, which is two underscores, and what follows it. -/
def cutMarker? : List Char → Option (List Char × List Char)
  | '_' :: '_' :: r => some ([], r)
  | d :: r => (cutMarker? r).map fun p => (d :: p.1, p.2)
  | [] => none

/-- The character that starts an arity suffix. -/
def arityMark : Char := '\x60'

/-- A name without its arity suffix. -/
def dropArity (name : String) : String := String.ofList (beforeLast arityMark name.toList)

/-! ## Decoding -/

/-- A name that is not blank, taken apart. The outer part stands between the first `>` and the last
`<` before it; the tag between the marker and the last `>` before that; the inner part ends at a
bar. -/
def split (raw : List Char) : Decoded :=
  match cut? '>' raw with
  | none => ⟨dropArity (String.ofList raw), none⟩
  | some (front, back) =>
    let logical := dropArity (String.ofList (afterLast '<' front))
    match cutMarker? back with
    | none => ⟨logical, none⟩
    | some (tagged, rest) =>
      ⟨logical, some
        { name := dropArity (String.ofList (rest.takeWhile (· ≠ '|')))
          kind := Kind.ofTag? (afterLast '>' tagged) }⟩

/-- A raw name taken apart. A blank name is refused, and no other. -/
def decode (raw : String) : Except Fault Decoded :=
  if Text.isBlank raw then .error .blankName else .ok (split raw.toList)

end ReadableTrace.Name
