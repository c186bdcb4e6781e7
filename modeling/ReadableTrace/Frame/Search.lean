import ReadableTrace.Frame.Basic
import ReadableTrace.Log.Logged

/-!
# Finding what a compiler moved

Two kinds of routine are made by a compiler and shown as what they were made from.

* A lambda belongs to the field that holds it: `Frame.fieldHolding` looks at the type that declares
  the lambda and then outwards, at the types around it.
* A state machine belongs to the one method that is marked with it: `Frame.asyncMethodOf`.
-/

namespace ReadableTrace.Frame

open Log

/-- The first field of a type that holds a routine. -/
def fieldIn? (t : TypeEntry) (target : RoutineRef) : Option Field :=
  t.fields.find? (·.target == some target)

/-- Ends a search that found no field. -/
def noField (target : RoutineRef) : Logged Fault (TypeRef × Field) := do
  Logged.note (.noDelegateField target)
  Logged.fail (.noDelegateField target)

/-- Looks for the field at `type` and outwards. The types already looked at, from `start` on, are on
`path`; a type that is met again ends the search. -/
def fieldOutwards (c : Catalog) (target : RoutineRef) (start : TypeRef) (path : List TypeRef)
    (type : TypeRef) : Logged Fault (TypeRef × Field) :=
  if _onPath : type ∈ path then do
    Logged.note (.enclosingCycle start)
    Logged.fail (.enclosingLoop start type)
  else
    match _known : c.type? type with
    | none => noField target
    | some t =>
      match fieldIn? t target with
      | some f => pure (type, f)
      | none =>
        match t.enclosing with
        | none => noField target
        | some outer => fieldOutwards c target start (type :: path) outer
termination_by c.outside path
decreasing_by exact Catalog.outside_cons_lt _known _onPath

/-- The innermost field that holds a lambda, from the type that declares the lambda outwards, and
the type that has the field. -/
def fieldHolding (c : Catalog) (target : RoutineRef) (start : TypeRef) :
    Logged Fault (TypeRef × Field) :=
  fieldOutwards c target start [] start

/-- The listed methods of a type that are marked with a state machine. -/
def methodsMarked (c : Catalog) (outer : TypeEntry) (machine : TypeRef) : List Routine :=
  (outer.methods.filterMap c.routine?).filter (·.machine == some machine)

/-- The method of a type from which a state machine was made. There has to be exactly one. -/
def asyncMethodOf (c : Catalog) (outer machine : TypeRef) : Logged Fault Routine := do
  let entry ← Logged.lift (c.type outer)
  match methodsMarked c entry machine with
  | [m] => pure m
  | [] => do
    Logged.note (.noAsyncMethod machine)
    Logged.fail (.noAsyncMethod outer machine)
  | several => do
    Logged.note (.manyAsyncMethods several.length machine)
    Logged.fail (.manyAsyncMethods several.length outer machine)

end ReadableTrace.Frame
