import ReadableTrace.Catalog.Ref

/-!
# What is known about types and routines

The entries of the catalog are plain facts, as a running program reports them about itself. They
refer to each other by `TypeRef` and `RoutineRef`, and may do so wrongly.
-/

namespace ReadableTrace

/-- How a type is built from others. -/
inductive Shape
  /-- Not built from others: ordinary types, and the parameters of generic ones. -/
  | plain
  /-- An array of a rank, which is its number of dimensions. -/
  | array (element : TypeRef) (rank : UInt32)
  /-- A reference to a place that holds an element. -/
  | byRef (element : TypeRef)
  /-- A value that may be missing. -/
  | nullable (underlying : TypeRef)
  /-- A generic type. Without a definition the type is itself the open definition, and the
  arguments are its parameters. -/
  | generic (definition : Option TypeRef) (arguments : List TypeRef)
  deriving DecidableEq, Inhabited

/-- A field of a type. -/
structure Field where
  name : String
  type : TypeRef
  /-- The routine that the delegate in the field calls. -/
  target : Option RoutineRef
  deriving DecidableEq

/-- A property of a type. -/
structure Property where
  name : String
  getter : Option RoutineRef
  setter : Option RoutineRef
  /-- How many indices the property takes; an indexer takes at least one. -/
  indexCount : UInt64
  deriving DecidableEq

/-- Whether a routine reads or writes the property. -/
def Property.hasAccessor (p : Property) (r : RoutineRef) : Bool :=
  p.getter == some r || p.setter == some r

/-- A type. -/
structure TypeEntry where
  /-- The simple name, with the arity suffix of a generic type. -/
  name : String
  /-- The namespace. -/
  space : Option String
  /-- The name with its namespace and enclosing types. Parameters of generic types have none. -/
  fullName : Option String
  shape : Shape
  /-- The type in which this one is nested. -/
  enclosing : Option TypeRef
  /-- Full names of the interfaces that the type implements. -/
  interfaces : List String
  fields : List Field
  properties : List Property
  /-- The methods declared on the type; constructors are not among them. -/
  methods : List RoutineRef
  deriving DecidableEq

namespace TypeEntry

/-- A name behind its namespace, if that is there and not empty. -/
def qualified (space : Option String) (name : String) : String :=
  match space with
  | some s => if s.isEmpty then name else s ++ "." ++ name
  | none => name

/-- A plain type without members. -/
def ofName (space : Option String) (name : String) : TypeEntry where
  name := name
  space := space
  fullName := some (qualified space name)
  shape := .plain
  enclosing := none
  interfaces := []
  fields := []
  properties := []
  methods := []

/-- Whether the type is generic, open or closed. -/
def isGeneric (t : TypeEntry) : Bool :=
  match t.shape with
  | .generic _ _ => true
  | _ => false

/-- The arguments of a generic type, or its parameters if it is open. -/
def arguments (t : TypeEntry) : List TypeRef :=
  match t.shape with
  | .generic _ args => args
  | _ => []

/-- Whether the type refers to a place. -/
def isByRef (t : TypeEntry) : Bool :=
  match t.shape with
  | .byRef _ => true
  | _ => false

/-- Whether the type implements the interface of this full name. -/
def implements (t : TypeEntry) (interface : String) : Bool := t.interfaces.contains interface

end TypeEntry

/-- A default value of a parameter. -/
inductive DefaultValue
  /-- The null value, which is not shown. -/
  | null
  /-- Any other value, as it is shown. -/
  | literal (text : String)
  deriving DecidableEq

/-- A parameter of a routine, or what a routine returns, which has no name. -/
structure Parameter where
  name : Option String
  type : TypeRef
  /-- Takes the rest of the arguments as an array. -/
  isVariadic : Bool
  isOut : Bool
  isIn : Bool
  /-- Checked when the program runs and not before. -/
  isDynamic : Bool
  /-- Names for the elements of a tuple, by position. -/
  elementNames : Option (List (Option String))
  default : Option DefaultValue
  deriving DecidableEq

/-- What a routine returns when it returns a value of a type. -/
def Parameter.returning (type : TypeRef) : Parameter where
  name := none
  type := type
  isVariadic := false
  isOut := false
  isIn := false
  isDynamic := false
  elementNames := none
  default := none

/-- The two kinds of routine. -/
inductive RoutineKind
  | method
  | constructor
  deriving DecidableEq

/-- A routine. -/
structure Routine where
  /-- The name, which a compiler may have made up. -/
  name : String
  kind : RoutineKind
  declaring : Option TypeRef
  /-- The type through which the routine was found, mostly the declaring one. -/
  reflected : Option TypeRef
  parameters : List Parameter
  genericArguments : List TypeRef
  isGeneric : Bool
  isStatic : Bool
  /-- What the routine returns. Constructors return nothing. -/
  returned : Option Parameter
  /-- Marked as not to be shown in traces. -/
  isHidden : Bool
  /-- The state machine into which a compiler turned an async method. -/
  machine : Option TypeRef
  deriving DecidableEq

namespace Routine

/-- Whether the routine is a method. -/
def isMethod (r : Routine) : Bool := r.kind == .method

/-- Whether the routine is a constructor. -/
def isConstructor (r : Routine) : Bool := r.kind == .constructor

/-- A method of an object that returns a value of a type. -/
def method (name : String) (declaring returned : TypeRef) : Routine where
  name := name
  kind := .method
  declaring := some declaring
  reflected := some declaring
  parameters := []
  genericArguments := []
  isGeneric := false
  isStatic := false
  returned := some (.returning returned)
  isHidden := false
  machine := none

/-- The constructor of an object, or the one that runs once for the type. -/
def constructor (declaring : TypeRef) (isStatic : Bool) : Routine where
  name := if isStatic then ".cctor" else ".ctor"
  kind := .constructor
  declaring := some declaring
  reflected := some declaring
  parameters := []
  genericArguments := []
  isGeneric := false
  isStatic := isStatic
  returned := none
  isHidden := false
  machine := none

end Routine

end ReadableTrace
