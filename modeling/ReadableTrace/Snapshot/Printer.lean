import ReadableTrace.Json.Printer
import ReadableTrace.Snapshot.Basic

/-!
# Writing snapshots

`Snapshot.pretty` writes a snapshot as JSON. Every key is written, in the order of the record; what
is missing is null and an empty list is `[]`.
-/

namespace ReadableTrace

namespace Snapshot

open Json (ofMembers ofString ofNat)

/-- A reference to a type. -/
def ofTypeRef (r : TypeRef) : Json := ofNat r.index.toNat

/-- A reference to a routine. -/
def ofRoutineRef (r : RoutineRef) : Json := ofNat r.index.toNat

/-- A value that may be missing. -/
def ofOption {α : Type} (write : α → Json) : Option α → Json
  | none => .null
  | some a => write a

/-- A list. -/
def ofList {α : Type} (write : α → Json) (as : List α) : Json := .list (as.map write)

/-- A shape. -/
def ofShape : Shape → Json
  | .plain => ofMembers [("kind", ofString "plain")]
  | .array element rank =>
    ofMembers [("kind", ofString "array"), ("element", ofTypeRef element),
      ("rank", ofNat rank.toNat)]
  | .byRef element => ofMembers [("kind", ofString "by_ref"), ("element", ofTypeRef element)]
  | .nullable underlying =>
    ofMembers [("kind", ofString "nullable"), ("underlying", ofTypeRef underlying)]
  | .generic definition arguments =>
    ofMembers [("kind", ofString "generic"), ("definition", ofOption ofTypeRef definition),
      ("arguments", ofList ofTypeRef arguments)]

/-- A field. -/
def ofField (f : Field) : Json :=
  ofMembers [("name", ofString f.name), ("field_type", ofTypeRef f.type),
    ("delegate_target", ofOption ofRoutineRef f.target)]

/-- A property. -/
def ofProperty (p : Property) : Json :=
  ofMembers [("name", ofString p.name), ("getter", ofOption ofRoutineRef p.getter),
    ("setter", ofOption ofRoutineRef p.setter),
    ("index_parameter_count", ofNat p.indexCount.toNat)]

/-- A type. -/
def ofType (t : TypeEntry) : Json :=
  ofMembers [("name", ofString t.name), ("namespace", ofOption ofString t.space),
    ("full_name", ofOption ofString t.fullName), ("shape", ofShape t.shape),
    ("declaring_type", ofOption ofTypeRef t.enclosing),
    ("interfaces", ofList ofString t.interfaces), ("fields", ofList ofField t.fields),
    ("properties", ofList ofProperty t.properties), ("methods", ofList ofRoutineRef t.methods)]

/-- A default value. -/
def ofDefault : DefaultValue → Json
  | .null => ofString "null"
  | .literal text => ofMembers [("literal", ofString text)]

/-- A parameter. -/
def ofParameter (p : Parameter) : Json :=
  ofMembers [("name", ofOption ofString p.name), ("parameter_type", ofTypeRef p.type),
    ("is_params_array", .bool p.isVariadic), ("is_out", .bool p.isOut), ("is_in", .bool p.isIn),
    ("is_dynamic", .bool p.isDynamic),
    ("tuple_element_names", ofOption (ofList (ofOption ofString)) p.elementNames),
    ("default_value", ofOption ofDefault p.default)]

/-- The kind of a routine. -/
def ofRoutineKind : RoutineKind → Json
  | .method => ofString "method"
  | .constructor => ofString "constructor"

/-- A routine. -/
def ofRoutine (r : Routine) : Json :=
  ofMembers [("name", ofString r.name), ("kind", ofRoutineKind r.kind),
    ("declaring_type", ofOption ofTypeRef r.declaring),
    ("reflected_type", ofOption ofTypeRef r.reflected),
    ("parameters", ofList ofParameter r.parameters),
    ("generic_arguments", ofList ofTypeRef r.genericArguments),
    ("is_generic_method", .bool r.isGeneric), ("is_static", .bool r.isStatic),
    ("return_parameter", ofOption ofParameter r.returned), ("hidden_in_trace", .bool r.isHidden),
    ("state_machine_type", ofOption ofTypeRef r.machine)]

/-- A frame. -/
def ofFrame (f : Frame) : Json :=
  ofMembers [("routine", ofOption ofRoutineRef f.routine), ("file_name", ofOption ofString f.file),
    ("line_number", ofOption (fun n => ofNat n.toNat) f.line)]

/-- A catalog. -/
def ofCatalog (c : Catalog) : Json :=
  ofMembers [("types", ofList ofType c.types.toList),
    ("routines", ofList ofRoutine c.routines.toList)]

/-- A snapshot. -/
def toJson (s : Snapshot) : Json :=
  ofMembers [("metadata", ofCatalog s.catalog), ("frames", ofList ofFrame s.frames)]

/-- A snapshot as JSON over several lines. -/
def pretty (s : Snapshot) : String := s.toJson.pretty

end Snapshot

end ReadableTrace
