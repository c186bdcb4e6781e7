import ReadableTrace.Json.Reader
import ReadableTrace.Json.Record
import ReadableTrace.Snapshot.Basic

/-!
# Reading snapshots

`Snapshot.ofText?` reads a snapshot from JSON. Each function below reads one kind of record; a key
that may be left out names what stands for it.
-/

namespace ReadableTrace

open Json

namespace Snapshot

/-- A reference to a type. -/
def readTypeRef (v : Json) : Option TypeRef := v.toUInt32?.map TypeRef.mk

/-- A reference to a routine. -/
def readRoutineRef (v : Json) : Option RoutineRef := v.toUInt32?.map RoutineRef.mk

/-! ## Shapes -/

/-- The shape of a kind with its fields. -/
def readShapeOfKind (kind : String) (rest : Json) : Option Shape :=
  match kind with
  | "plain" => do
    match rest with
    | .list (_ :: _) => none
    | _ => some .plain
  | "array" => do
    let fs ← fields ["element", "rank"] rest
    some (.array (← fs.required "element" readTypeRef) (← fs.required "rank" toUInt32?))
  | "by_ref" => do
    let fs ← fields ["element"] rest
    some (.byRef (← fs.required "element" readTypeRef))
  | "nullable" => do
    let fs ← fields ["underlying"] rest
    some (.nullable (← fs.required "underlying" readTypeRef))
  | "generic" => do
    let fs ← fields ["definition", "arguments"] rest
    some (.generic (← fs.optional "definition" none (toOption? readTypeRef))
      (← fs.required "arguments" (toList? readTypeRef)))
  | _ => none

/-- How deeply lists and objects may be nested in the value of a shape. -/
def maxShapeDepth : Nat := 123

/-- A shape: an object that names its kind under `kind`, at any place but once, or a list that
begins with the kind. The whole value has to be sound, also where it is not used. -/
def readShape (v : Json) : Option Shape :=
  if !v.isSound || maxShapeDepth < v.depth then none
  else
    match v with
    | .object members => do
      let tag ← fields ["kind"] v
      readShapeOfKind (← tag.required "kind" toString?)
        (.object (members.filter (·.1 != some "kind")))
    | .list (kind :: rest) => do readShapeOfKind (← kind.toString?) (.list rest)
    | _ => none

/-! ## Types -/

/-- A field. -/
def readField (v : Json) : Option Field := do
  let fs ← fields ["name", "field_type", "delegate_target"] v
  some
    { name := ← fs.required "name" toString?
      type := ← fs.required "field_type" readTypeRef
      target := ← fs.optional "delegate_target" none (toOption? readRoutineRef) }

/-- A property. -/
def readProperty (v : Json) : Option Property := do
  let fs ← fields ["name", "getter", "setter", "index_parameter_count"] v
  some
    { name := ← fs.required "name" toString?
      getter := ← fs.optional "getter" none (toOption? readRoutineRef)
      setter := ← fs.optional "setter" none (toOption? readRoutineRef)
      indexCount := ← fs.optional "index_parameter_count" 0 toUInt64? }

/-- The keys of a type. -/
def typeKeys : List String :=
  ["name", "namespace", "full_name", "shape", "declaring_type", "interfaces", "fields",
    "properties", "methods"]

/-- A type. -/
def readType (v : Json) : Option TypeEntry := do
  let fs ← fields typeKeys v
  some
    { name := ← fs.required "name" toString?
      space := ← fs.optional "namespace" none (toOption? toString?)
      fullName := ← fs.optional "full_name" none (toOption? toString?)
      shape := ← fs.optional "shape" .plain readShape
      enclosing := ← fs.optional "declaring_type" none (toOption? readTypeRef)
      interfaces := ← fs.optional "interfaces" [] (toList? toString?)
      fields := ← fs.optional "fields" [] (toList? readField)
      properties := ← fs.optional "properties" [] (toList? readProperty)
      methods := ← fs.optional "methods" [] (toList? readRoutineRef) }

/-! ## Routines -/

/-- A default value. -/
def readDefault (v : Json) : Option DefaultValue := do
  match ← v.toCase? with
  | ("null", content) => if isBare content then some .null else none
  | ("literal", some content) => content.toString?.map .literal
  | _ => none

/-- The keys of a parameter. -/
def parameterKeys : List String :=
  ["name", "parameter_type", "is_params_array", "is_out", "is_in", "is_dynamic",
    "tuple_element_names", "default_value"]

/-- A parameter. -/
def readParameter (v : Json) : Option Parameter := do
  let fs ← fields parameterKeys v
  some
    { name := ← fs.optional "name" none (toOption? toString?)
      type := ← fs.required "parameter_type" readTypeRef
      isVariadic := ← fs.optional "is_params_array" false toBool?
      isOut := ← fs.optional "is_out" false toBool?
      isIn := ← fs.optional "is_in" false toBool?
      isDynamic := ← fs.optional "is_dynamic" false toBool?
      elementNames := ← fs.optional "tuple_element_names" none
        (toOption? (toList? (toOption? toString?)))
      default := ← fs.optional "default_value" none (toOption? readDefault) }

/-- The kind of a routine. -/
def readRoutineKind (v : Json) : Option RoutineKind := do
  let (name, content) ← v.toCase?
  if !isBare content then none
  else
    match name with
    | "method" => some .method
    | "constructor" => some .constructor
    | _ => none

/-- The keys of a routine. -/
def routineKeys : List String :=
  ["name", "kind", "declaring_type", "reflected_type", "parameters", "generic_arguments",
    "is_generic_method", "is_static", "return_parameter", "hidden_in_trace", "state_machine_type"]

/-- A routine. -/
def readRoutine (v : Json) : Option Routine := do
  let fs ← fields routineKeys v
  some
    { name := ← fs.required "name" toString?
      kind := ← fs.required "kind" readRoutineKind
      declaring := ← fs.optional "declaring_type" none (toOption? readTypeRef)
      reflected := ← fs.optional "reflected_type" none (toOption? readTypeRef)
      parameters := ← fs.optional "parameters" [] (toList? readParameter)
      genericArguments := ← fs.optional "generic_arguments" [] (toList? readTypeRef)
      isGeneric := ← fs.optional "is_generic_method" false toBool?
      isStatic := ← fs.optional "is_static" false toBool?
      returned := ← fs.optional "return_parameter" none (toOption? readParameter)
      isHidden := ← fs.optional "hidden_in_trace" false toBool?
      machine := ← fs.optional "state_machine_type" none (toOption? readTypeRef) }

/-! ## Snapshots -/

/-- A frame. -/
def readFrame (v : Json) : Option Frame := do
  let fs ← fields ["routine", "file_name", "line_number"] v
  some
    { routine := ← fs.optional "routine" none (toOption? readRoutineRef)
      file := ← fs.optional "file_name" none (toOption? toString?)
      line := ← fs.optional "line_number" none (toOption? toUInt32?) }

/-- A catalog. -/
def readCatalog (v : Json) : Option Catalog := do
  let fs ← fields ["types", "routines"] v
  let types ← fs.optional "types" [] (toList? readType)
  let routines ← fs.optional "routines" [] (toList? readRoutine)
  some ⟨types.toArray, routines.toArray⟩

/-- A snapshot. -/
def ofJson? (v : Json) : Option Snapshot := do
  let fs ← fields ["metadata", "frames"] v
  some
    { catalog := ← fs.optional "metadata" .empty readCatalog
      frames := ← fs.optional "frames" [] (toList? readFrame) }

/-- The snapshot that a JSON text holds. -/
def ofText? (text : String) : Option Snapshot := (Json.ofText? text).bind ofJson?

end Snapshot

end ReadableTrace
