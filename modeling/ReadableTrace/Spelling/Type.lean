import ReadableTrace.Log.Logged
import ReadableTrace.Name
import ReadableTrace.Catalog.Build
import ReadableTrace.Spelling.Keyword

/-!
# How a type is spelled

`Spelling.ofType` spells a type as a programmer would write it: `int?`, `string[,]`,
`List<int>`, `Outer.Inner`. It goes from a type to the types it is built from and keeps the path on
which it came. A type that is met again on its own path is reported, so that the walk ends: it only
goes on to types of the catalog that are not on the path, and there are finitely many of those
(`Catalog.outside_cons_lt`).
-/

namespace ReadableTrace.Spelling

open Log

/-- A name taken apart and put together as `logical` or `logical.nested`. -/
def ofDecoded (d : Name.Decoded) : String :=
  match d.nested with
  | some nested => d.logical ++ "." ++ nested
  | none => d.logical

/-- The spelling of a type by its names alone: a keyword; for other framework types, which are those
whose full name begins with `lead`, the simple name; else the name with what a compiler added taken
off. -/
def ofNames (lead : String) (t : TypeEntry) : Logged Fault String :=
  match t.fullName with
  | none => .lift ((Name.decode t.name).map ofDecoded)
  | some fullName =>
    match keyword? fullName with
    | some keyword => do
      Logged.note (.keywordUsed fullName keyword)
      pure keyword
    | none =>
      if beginsWith lead fullName then do
        Logged.note (.frameworkType fullName)
        pure (Name.dropArity t.name)
      else .lift ((Name.decode fullName).map ofDecoded)

/-- The definition of a generic type: the type itself if it is the open definition. -/
def definitionOf (c : Catalog) (t : TypeEntry) : Option TypeRef → Except Fault TypeEntry
  | some d => c.type d
  | none => .ok t

/-- The arguments of a generic type in angle brackets. -/
def angled (arguments : List String) : String := "<" ++ ", ".intercalate arguments ++ ">"

/-- The spelling of a type that was reached along `path`. -/
def along (c : Catalog) (lead : String) (path : List TypeRef) (type : TypeRef) :
    Logged Fault String :=
  if _onPath : type ∈ path then do
    Logged.note (.shapeCycle type)
    Logged.fail (.selfReference type)
  else
    match _known : c.type? type with
    | none => Logged.fail (.unknownType type)
    | some t =>
      match t.shape with
      | .plain => ofNames lead t
      | .byRef element => along c lead (type :: path) element
      | .nullable underlying => (· ++ "?") <$> along c lead (type :: path) underlying
      | .array element rank =>
        (· ++ Catalog.brackets rank) <$> along c lead (type :: path) element
      | .generic definition arguments => do
        let d ← Logged.lift (definitionOf c t definition)
        let head ← (match d.shape with
          | .byRef element => along c lead (type :: path) element
          | _ => ofNames lead d)
        let spelled ← Logged.traverse (fun a => along c lead (type :: path) a) arguments
        pure (head ++ angled spelled)
termination_by c.outside path
decreasing_by all_goals exact Catalog.outside_cons_lt _known _onPath

/-- The spelling of a type. The full names of the framework's own types begin with `lead`. -/
def ofType (c : Catalog) (lead : String) (type : TypeRef) : Logged Fault String :=
  along c lead [] type

end ReadableTrace.Spelling
