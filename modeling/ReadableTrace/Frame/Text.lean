import ReadableTrace.Frame.Search
import ReadableTrace.Spelling.Parameter

/-!
# The text of a frame in each style

`Style.body` is the text of a routine in a style. It does not depend on the frame beyond its
routine; the place in the source is put behind it (`Style.render`).

* lambda: `Action Space.Owner.Field()`
* async method: `async Task<int> Space.Owner.Load(string path)`
* method: `void Space.Owner.Run()+Local<T>(int n)`, and `int Space.Owner[int index]` for an indexer
* constructor: `new Space.Owner(int n)` or `static Space.Owner()`
-/

namespace ReadableTrace

open Log

/-! ## Parts -/

namespace View

/-- The spelling of a type. -/
def type (v : View) (r : TypeRef) : Logged Fault String :=
  Spelling.ofType v.catalog v.frameworkLead r

/-- The spelling of a parameter. -/
def parameter (v : View) (p : Parameter) : Logged Fault String :=
  Spelling.ofParameter v.catalog v.frameworkLead p

/-- The spelling of what a routine returns. -/
def returned (v : View) (r : Routine) : Logged Fault String :=
  match r.returned with
  | some p => v.parameter p
  | none => Logged.fail (.noReturn r.name)

/-- The parameters of a routine, without parentheses. -/
def parameters (v : View) (r : Routine) : Logged Fault String :=
  (", ".intercalate ·) <$> Logged.traverse v.parameter r.parameters

/-- The type arguments of a generic routine, without brackets. -/
def typeArguments (v : View) (r : Routine) : Logged Fault String :=
  if r.isGeneric then (", ".intercalate ·) <$> Logged.traverse v.type r.genericArguments
  else pure ""

end View

/-- Type arguments in angle brackets, if there are any. -/
def Style.bracketed (arguments : String) : String :=
  if arguments.isEmpty then "" else "<" ++ arguments ++ ">"

/-- The type that declares a routine. -/
def Routine.declaringType (r : Routine) : Except Fault TypeRef :=
  match r.declaring with
  | some t => .ok t
  | none => .error (.noDeclaringType r.name)

/-- A name decoded for a trace: a local function or lambda follows the routine that it is in. -/
def Name.Decoded.member (d : Name.Decoded) : String :=
  match d.nested with
  | some nested => d.logical ++ "()+" ++ nested
  | none => d.logical

namespace Style

/-- A spelling behind its namespace. A namespace that is missing or blank is left out, and so is one
in front of a spelling that begins with `besides`. -/
def qualify (space : Option String) (spelled : String) (besides : Option String) : String :=
  match Text.nonBlank space with
  | some s => if besides.any (Spelling.beginsWith · spelled) then spelled else s ++ "." ++ spelled
  | none => spelled

/-! ## The four styles -/

/-- A lambda, shown as the field that holds it. -/
def lambdaBody (v : View) (ref : RoutineRef) (r : Routine) : Logged Fault String := do
  let start ← Logged.lift r.declaringType
  let (ownerRef, field) ← Frame.fieldHolding v.catalog ref start
  let delegate ← v.type field.type
  let name ← Logged.lift (Name.decode field.name)
  let owner ← Logged.lift (v.catalog.type ownerRef)
  let spelled ← v.type ownerRef
  let declaring := qualify owner.space spelled (some owner.name)
  if (name.inner.bind (·.kind)) = some .backingField then
    pure (delegate ++ " " ++ declaring ++ "." ++ name.logical)
  else
    let arguments ← v.typeArguments r
    pure (delegate ++ " " ++ declaring ++ "." ++ name.member ++ bracketed arguments ++ "()")

/-- The state machine that a routine belongs to. -/
def machineOf (r : Routine) : Except Fault TypeRef :=
  match r.declaring.or r.reflected with
  | some t => .ok t
  | none => .error (.noStateMachine r.name)

/-- The type around a state machine. -/
def aroundMachine (c : Catalog) (machine : TypeRef) : Except Fault TypeRef := do
  let entry ← c.type machine
  match entry.enclosing with
  | some t => .ok t
  | none => .error (.noEnclosingType machine)

/-- A step of a state machine, shown as the method from which the machine was made. -/
def asyncBody (v : View) (r : Routine) : Logged Fault String := do
  let machine ← Logged.lift (machineOf r)
  let outer ← Logged.lift (aroundMachine v.catalog machine)
  let source ← Frame.asyncMethodOf v.catalog outer machine
  let result ← v.returned source
  let declaring ← v.type outer
  let name ← Logged.lift (Name.decode source.name)
  let arguments ← v.typeArguments source
  let parameters ← v.parameters source
  pure ("async " ++ result ++ " " ++ declaring ++ "." ++ name.logical ++ bracketed arguments
    ++ "(" ++ parameters ++ ")")

/-- Whether a routine reads or writes a property that takes indices. The first property that has the
routine counts. -/
def isIndexer (c : Catalog) (ref : RoutineRef) (r : Routine) : Except Fault Bool :=
  if r.name = "get_Item" ∨ r.name = "set_Item" then
    match r.declaring with
    | none => .ok false
    | some owner => (c.type owner).map fun t =>
      (t.properties.find? (·.hasAccessor ref)).any (0 < ·.indexCount)
  else .ok false

/-- A method, a local function or an indexer. -/
def methodBody (v : View) (ref : RoutineRef) (r : Routine) : Logged Fault String := do
  let result ← v.returned r
  let owner ← Logged.lift r.declaringType
  let declaring ← v.type owner
  let parameters ← v.parameters r
  let indexer ← Logged.lift (isIndexer v.catalog ref r)
  if indexer then pure (result ++ " " ++ declaring ++ "[" ++ parameters ++ "]")
  else
    let name ← Logged.lift (Name.decode r.name)
    let arguments ← v.typeArguments r
    pure (result ++ " " ++ declaring ++ "." ++ name.member ++ bracketed arguments
      ++ "(" ++ parameters ++ ")")

/-- A constructor. -/
def constructorBody (v : View) (r : Routine) : Logged Fault String := do
  let owner ← Logged.lift r.declaringType
  let entry ← Logged.lift (v.catalog.type owner)
  let spelled ← v.type owner
  let declaring := qualify entry.space spelled entry.space
  let arguments ← v.typeArguments r
  let parameters ← v.parameters r
  pure ((if r.isStatic then "static " else "new ") ++ declaring ++ bracketed arguments
    ++ "(" ++ parameters ++ ")")

/-- The text of a routine in a style. -/
def body (s : Style) (v : View) (ref : RoutineRef) (r : Routine) : Logged Fault String :=
  match s with
  | lambda => lambdaBody v ref r
  | asyncMethod => asyncBody v r
  | method => methodBody v ref r
  | constructor => constructorBody v r

/-- The text of a frame in a style, whether or not the style claims the frame. -/
def render (s : Style) (v : View) (f : Frame) : Logged Fault String := do
  let (ref, r) ← Logged.lift (f.resolve v.catalog)
  let text ← s.body v ref r
  pure (text ++ v.suffix f)

end Style

end ReadableTrace
