import ReadableTrace.Catalog.Ref

/-!
# Why a name cannot be decoded or a frame cannot be shown

Each cause is a constructor of `Fault`. `Fault.kind` sorts the causes into four kinds and
`Fault.message` words them.
-/

namespace ReadableTrace

/-- The four kinds of failure. -/
inductive FaultKind
  /-- Something that is needed is not there. -/
  | absent
  /-- A name that has to be read is blank. -/
  | invalid
  /-- No style claims the frame. -/
  | unsupported
  /-- The catalog contradicts itself. -/
  | inconsistent
  deriving DecidableEq

/-- A cause of failure. -/
inductive Fault
  /-- The catalog has no such type. -/
  | unknownType (type : TypeRef)
  /-- The catalog has no such routine. -/
  | unknownRoutine (routine : RoutineRef)
  /-- The frame names no routine. -/
  | noRoutine
  /-- The routine, given by its name, has no return value. -/
  | noReturn (routine : String)
  /-- The routine, given by its name, belongs to no type. -/
  | noDeclaringType (routine : String)
  /-- The routine, given by its name, belongs to no state machine. -/
  | noStateMachine (routine : String)
  /-- The state machine is not nested in a type. -/
  | noEnclosingType (machine : TypeRef)
  /-- A raw name is blank. -/
  | blankName
  /-- No style claims the routine of this name. -/
  | unclaimed (routine : String)
  /-- The shape of a type leads back to the type. -/
  | selfReference (type : TypeRef)
  /-- The types that enclose `start` lead back to `again`. -/
  | enclosingLoop (start again : TypeRef)
  /-- No enclosing type has a field that holds the lambda. -/
  | noDelegateField (routine : RoutineRef)
  /-- No method of `outer` is the source of the state machine. -/
  | noAsyncMethod (outer machine : TypeRef)
  /-- Several methods of `outer` are marked as the source of the state machine. -/
  | manyAsyncMethods (count : Nat) (outer machine : TypeRef)
  deriving DecidableEq

namespace Fault

/-- The kind of a cause. -/
def kind : Fault → FaultKind
  | unknownType _ | unknownRoutine _ | noRoutine | noReturn _ | noDeclaringType _
  | noStateMachine _ | noEnclosingType _ => .absent
  | blankName => .invalid
  | unclaimed _ => .unsupported
  | selfReference _ | enclosingLoop _ _ | noDelegateField _ | noAsyncMethod _ _
  | manyAsyncMethods _ _ _ => .inconsistent

/-- What the cause says, without its kind. -/
def detail : Fault → String
  | unknownType t => "type #" ++ t.text
  | unknownRoutine r => "routine #" ++ r.text
  | noRoutine => "frame routine"
  | noReturn name => "return parameter of '" ++ name ++ "'"
  | noDeclaringType name => "declaring type of '" ++ name ++ "'"
  | noStateMachine name => "state machine of '" ++ name ++ "'"
  | noEnclosingType m => "type enclosing state machine #" ++ m.text
  | blankName => "raw name must not be empty or whitespace"
  | unclaimed name => "'" ++ name ++ "'"
  | selfReference t => "type #" ++ t.text ++ " refers back to itself"
  | enclosingLoop start again =>
    "enclosing type chain of type #" ++ start.text ++ " loops back to #" ++ again.text
  | noDelegateField r => "no delegate field holds lambda routine #" ++ r.text
  | noAsyncMethod outer m =>
    "no method on type #" ++ outer.text ++ " owns state machine #" ++ m.text
  | manyAsyncMethods n outer m =>
    Decimal.text n ++ " methods on type #" ++ outer.text ++ " own state machine #" ++ m.text

/-- How messages of a kind begin. -/
def opening : FaultKind → String
  | .absent => "required value is absent: "
  | .invalid => "invalid argument: "
  | .unsupported => "no frame serializer claims routine "
  | .inconsistent => "internal consistency failure: "

/-- The whole message of a cause. -/
def message (f : Fault) : String := opening f.kind ++ f.detail

end Fault

end ReadableTrace
