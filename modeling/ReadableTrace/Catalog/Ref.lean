import ReadableTrace.Text.Decimal

/-!
# References to types and routines

Types and routines refer to each other by their position in the catalog, so that a type can list
its methods and a method name its type. Nothing says that a reference points to an entry.
-/

namespace ReadableTrace

/-- The position of a type in the catalog. -/
structure TypeRef where
  index : UInt32
  deriving DecidableEq, Inhabited

/-- The position of a routine, which is a method or a constructor, in the catalog. -/
structure RoutineRef where
  index : UInt32
  deriving DecidableEq, Inhabited

/-- A type reference as messages show it. -/
def TypeRef.text (r : TypeRef) : String := Decimal.text r.index.toNat

/-- A routine reference as messages show it. -/
def RoutineRef.text (r : RoutineRef) : String := Decimal.text r.index.toNat

end ReadableTrace
