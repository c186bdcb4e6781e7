import ReadableTrace.Catalog.Basic

/-!
# Building a catalog

Each builder takes a catalog and gives the reference of the new entry with the grown catalog.
Entries are only ever added at the end; what changes in an earlier entry is its list of fields
(`Catalog.addField`) or of methods (`Catalog.addRoutine`), at the end of that list.
-/

namespace ReadableTrace.Catalog

/-- Adds a type. -/
def addType (c : Catalog) (t : TypeEntry) : TypeRef × Catalog :=
  (⟨UInt32.ofNat c.types.size⟩, { c with types := c.types.push t })

/-- Changes the type at a position; an unknown reference changes nothing. -/
def modifyType (c : Catalog) (r : TypeRef) (f : TypeEntry → TypeEntry) : Catalog :=
  { c with types := c.types.modify r.index.toNat f }

/-- Changes the routine at a position; an unknown reference changes nothing. -/
def modifyRoutine (c : Catalog) (r : RoutineRef) (f : Routine → Routine) : Catalog :=
  { c with routines := c.routines.modify r.index.toNat f }

/-- Lists a method on its declaring type. Constructors are not listed. -/
def listMethod (c : Catalog) (ref : RoutineRef) (r : Routine) : Catalog :=
  match r.kind, r.declaring with
  | .method, some owner => c.modifyType owner fun t => { t with methods := t.methods ++ [ref] }
  | _, _ => c

/-- Adds a routine, and lists it on its declaring type if it is a method. -/
def addRoutine (c : Catalog) (r : Routine) : RoutineRef × Catalog :=
  let ref : RoutineRef := ⟨UInt32.ofNat c.routines.size⟩
  let listed := c.listMethod ref r
  (ref, { listed with routines := listed.routines.push r })

/-- Adds a field to a type. -/
def addField (c : Catalog) (owner : TypeRef) (f : Field) : Catalog :=
  c.modifyType owner fun t => { t with fields := t.fields ++ [f] }

/-- Adds a property to a type. -/
def addProperty (c : Catalog) (owner : TypeRef) (p : Property) : Catalog :=
  c.modifyType owner fun t => { t with properties := t.properties ++ [p] }

/-- The namespace of the framework's own types. -/
def frameworkSpace : String := "System"

/-- A framework type. One that the catalog has already, by its full name, is used again. -/
def addFrameworkType (c : Catalog) (name : String) : TypeRef × Catalog :=
  match c.findType? (frameworkSpace ++ "." ++ name) with
  | some r => (r, c)
  | none => c.addType (.ofName (some frameworkSpace) name)

/-- A plain type. -/
def addNamedType (c : Catalog) (space : Option String) (name : String) : TypeRef × Catalog :=
  c.addType (.ofName space name)

/-- A type nested in another: its full name is that of the outer type, a plus sign and its own. -/
def addNestedType (c : Catalog) (outer : TypeRef) (name : String) : TypeRef × Catalog :=
  let around := c.type? outer
  c.addType
    { TypeEntry.ofName none name with
      space := around.bind (·.space)
      fullName := (around.bind (·.fullName)).map (· ++ "+" ++ name)
      enclosing := some outer }

/-- A parameter of a generic type, which has no full name. -/
def addGenericParameter (c : Catalog) (name : String) : TypeRef × Catalog :=
  c.addType { TypeEntry.ofName none name with fullName := none }

/-- Parameters of a generic type, in order. -/
def addGenericParameters (c : Catalog) : List String → List TypeRef × Catalog
  | [] => ([], c)
  | name :: rest =>
    let (r, c) := c.addGenericParameter name
    let (rs, c) := addGenericParameters c rest
    (r :: rs, c)

/-- An open generic type with fresh parameters. -/
def addGenericDefinition (c : Catalog) (space : Option String) (name : String)
    (parameters : List String) : TypeRef × Catalog :=
  let (args, c) := c.addGenericParameters parameters
  c.addType { TypeEntry.ofName space name with shape := .generic none args }

/-- A type whose names are those of another with a suffix; of an unknown type only the suffix is
left. -/
def derived (c : Catalog) (base : TypeRef) (suffix : String) : TypeEntry :=
  match c.type? base with
  | some b =>
    { TypeEntry.ofName none (b.name ++ suffix) with
      space := b.space
      fullName := b.fullName.map (· ++ suffix) }
  | none => .ofName none suffix

/-- A generic type with its arguments filled in. -/
def addGenericInstance (c : Catalog) (definition : TypeRef) (arguments : List TypeRef) :
    TypeRef × Catalog :=
  c.addType
    { c.derived definition "" with
      enclosing := (c.type? definition).bind (·.enclosing)
      shape := .generic (some definition) arguments }

/-- The brackets of an array type: one comma fewer than it has dimensions. -/
def brackets (rank : UInt32) : String :=
  "[" ++ String.ofList (List.replicate (rank.toNat - 1) ',') ++ "]"

/-- An array type. -/
def addArray (c : Catalog) (element : TypeRef) (rank : UInt32) : TypeRef × Catalog :=
  c.addType { c.derived element (brackets rank) with shape := .array element rank }

/-- A type of references to places that hold an element. -/
def addByRef (c : Catalog) (element : TypeRef) : TypeRef × Catalog :=
  c.addType { c.derived element "&" with shape := .byRef element }

/-- A type of values that may be missing. -/
def addNullable (c : Catalog) (underlying : TypeRef) : TypeRef × Catalog :=
  c.addType
    { TypeEntry.ofName (some frameworkSpace) "Nullable`1" with
      shape := .nullable underlying }

end ReadableTrace.Catalog
