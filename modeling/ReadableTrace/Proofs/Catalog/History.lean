import ReadableTrace.Catalog.Build
import ReadableTrace.Text.Blank

/-!
# How a catalog comes about

A catalog is built step by step. `Catalog.Step` has one constructor for each builder, and
`Catalog.Reached` are the catalogs that come from the empty one by steps of which each is allowed
where it is taken. The usual rule is `Step.Sound`: what a step refers to is there already, and the
names that it brings are not blank. `Catalog.Assembled` is wider: besides the builders, types may be
added as they are (`Catalog.Addition`).
-/

namespace ReadableTrace.Catalog

/-- A call of a builder. -/
inductive Step
  | frameworkType (name : String)
  | namedType (space : Option String) (name : String)
  | nestedType (outer : TypeRef) (name : String)
  | genericParameter (name : String)
  | genericDefinition (space : Option String) (name : String) (parameters : List String)
  | genericInstance (definition : TypeRef) (arguments : List TypeRef)
  | array (element : TypeRef) (rank : UInt32)
  | byRef (element : TypeRef)
  | nullable (underlying : TypeRef)
  | field (owner : TypeRef) (f : Field)
  | routine (r : Routine)
  deriving DecidableEq

namespace Step

/-- The catalog after a step. -/
def apply (c : Catalog) : Step → Catalog
  | frameworkType name => (c.addFrameworkType name).2
  | namedType space name => (c.addNamedType space name).2
  | nestedType outer name => (c.addNestedType outer name).2
  | genericParameter name => (c.addGenericParameter name).2
  | genericDefinition space name parameters => (c.addGenericDefinition space name parameters).2
  | genericInstance definition arguments => (c.addGenericInstance definition arguments).2
  | array element rank => (c.addArray element rank).2
  | byRef element => (c.addByRef element).2
  | nullable underlying => (c.addNullable underlying).2
  | field owner f => c.addField owner f
  | routine r => (c.addRoutine r).2

/-- The types on which a step builds a new one. A field or a routine may speak of any types, since
they do not become part of how a type is built. -/
def bases : Step → List TypeRef
  | nestedType outer _ => [outer]
  | genericInstance definition arguments => definition :: arguments
  | array element _ | byRef element => [element]
  | nullable underlying => [underlying]
  | frameworkType _ | namedType _ _ | genericParameter _ | genericDefinition _ _ _ => []
  | field _ _ | routine _ => []

/-- The names that a step gives to types. -/
def names : Step → List String
  | frameworkType name | namedType _ name | nestedType _ name | genericParameter name => [name]
  | genericDefinition _ name parameters => name :: parameters
  | genericInstance _ _ | array _ _ | byRef _ | nullable _ | field _ _ | routine _ => []

/-- The step builds on types of the catalog and gives names that can be read. -/
structure Sound (c : Catalog) (s : Step) : Prop where
  known : ∀ r ∈ s.bases, (c.type? r).isSome = true
  named : ∀ name ∈ s.names, Text.isBlank name = false

end Step

/-- The catalogs that come about by allowed steps. -/
inductive Reached (allowed : Catalog → Step → Prop) : Catalog → Prop
  | empty : Reached allowed .empty
  | step {c s} : Reached allowed c → allowed c s → Reached allowed (s.apply c)

/-! ## Types added as they are -/

/-- A call of a builder, or a type that is added as it is. -/
inductive Addition
  | built (s : Step)
  | given (t : TypeEntry)
  deriving DecidableEq

namespace Addition

/-- The catalog after an addition. -/
def apply (c : Catalog) : Addition → Catalog
  | built s => s.apply c
  | given t => (c.addType t).2

/-- A routine that is added belongs to a type of the catalog or to none, and a type that is added as
it is lists no methods. -/
structure Owned (c : Catalog) (a : Addition) : Prop where
  known : ∀ r, a = .built (.routine r) → ∀ owner ∈ r.declaring, (c.type? owner).isSome = true
  bare : ∀ t, a = .given t → t.methods = []

end Addition

/-- The catalogs that come about by allowed additions. -/
inductive Assembled (allowed : Catalog → Addition → Prop) : Catalog → Prop
  | empty : Assembled allowed .empty
  | add {c a} : Assembled allowed c → allowed c a → Assembled allowed (a.apply c)

end ReadableTrace.Catalog
