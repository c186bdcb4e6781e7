import ReadableTrace.Catalog.Basic

/-!
# Names that the language knows

Some framework types have a keyword (`keyword?`), and the two families of tuples are told by how
their full names begin (`inFamily`).
-/

namespace ReadableTrace.Spelling

/-- Full names of framework types with their keywords. -/
def keywords : List (String × String) :=
  [("System.Void", "void"), ("System.Object", "object"), ("System.Boolean", "bool"),
    ("System.Byte", "byte"), ("System.SByte", "sbyte"), ("System.Char", "char"),
    ("System.Decimal", "decimal"), ("System.Double", "double"), ("System.Single", "float"),
    ("System.Int32", "int"), ("System.UInt32", "uint"), ("System.Int64", "long"),
    ("System.UInt64", "ulong"), ("System.Int16", "short"), ("System.UInt16", "ushort"),
    ("System.String", "string")]

/-- The keyword for a type of this full name, if it has one. -/
def keyword? (fullName : String) : Option String := keywords.lookup fullName

/-- Whether a text begins with another. -/
def beginsWith (lead text : String) : Bool := lead.toList.isPrefixOf text.toList

theorem beginsWith_iff {lead text : String} :
    beginsWith lead text = true ↔ lead.toList <+: text.toList :=
  List.isPrefixOf_iff_prefix

/-- How the full names of the tuple types begin. -/
def tupleLead : String := "System.Tuple"

/-- How the full names of the tuple types that are values begin. -/
def valueTupleLead : String := "System.ValueTuple"

/-- Whether a type is generic and its definition's full name begins with `lead`; an arity, if it is
given, has to be the number of the type's arguments. -/
def inFamily (c : Catalog) (lead : String) (type : TypeRef) (arity : Option Nat) :
    Except Fault Bool := do
  let entry ← c.type type
  match entry.shape with
  | .generic definition arguments =>
    let named := match definition with
      | some d => c.type? d
      | none => some entry
    let member := (named.bind (·.fullName)).any (beginsWith lead)
    pure (member && arity.all (arguments.length == ·))
  | _ => pure false

end ReadableTrace.Spelling
