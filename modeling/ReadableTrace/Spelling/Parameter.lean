import ReadableTrace.Spelling.Type

/-!
# How a parameter is spelled

`Spelling.ofParameter` spells a parameter as in a declaration,
`[params ][out |in |ref ]type[ name][ = default]`.
-/

namespace ReadableTrace.Spelling

open Log

/-- The word for how a parameter is passed, with a blank behind it. -/
def passing (p : Parameter) (t : TypeEntry) : String :=
  if p.isOut then "out " else if p.isIn then "in " else if t.isByRef then "ref " else ""

/-- An element of a tuple: its type and, if there is one that is not blank, its name. -/
def element (names : List (Option String)) (position : Nat) (spelled : String) : String :=
  match Text.nonBlank (names[position]?.join) with
  | some name => spelled ++ " " ++ name
  | none => spelled

/-- The elements of a tuple from a position on. -/
def elements (c : Catalog) (lead : String) (names : List (Option String)) :
    Nat → List TypeRef → Logged Fault (List String)
  | _, [] => pure []
  | position, a :: rest => do
    let spelled ← ofType c lead a
    let others ← elements c lead names (position + 1) rest
    pure (element names position spelled :: others)

/-- The type of a parameter. A tuple that is a value is spelled by its elements. -/
def typeSegment (c : Catalog) (lead : String) (p : Parameter) (t : TypeEntry) :
    Logged Fault String :=
  if p.isDynamic then pure "dynamic"
  else do
    let isTuple ← Logged.lift (inFamily c valueTupleLead p.type none)
    if isTuple then
      let parts ← elements c lead (p.elementNames.getD []) 0 t.arguments
      pure ("(" ++ ", ".intercalate parts ++ ")")
    else ofType c lead p.type

/-- The default value of a parameter. Null is not shown. -/
def defaultSegment (p : Parameter) : String :=
  match p.default with
  | some (.literal text) => " = " ++ text
  | _ => ""

/-- The name of a parameter, if it has one that is not blank. -/
def nameSegment (p : Parameter) : String :=
  match Text.nonBlank p.name with
  | some name => " " ++ name
  | none => ""

/-- The spelling of a parameter. -/
def ofParameter (c : Catalog) (lead : String) (p : Parameter) : Logged Fault String := do
  let t ← Logged.lift (c.type p.type)
  let segment ← typeSegment c lead p t
  let variadic := if p.isVariadic then "params " else ""
  pure (variadic ++ passing p t ++ segment ++ nameSegment p ++ defaultSegment p)

end ReadableTrace.Spelling
