import ReadableTrace.Catalog.Basic

/-!
# Frames

A frame is what a running program reports about one of its active routines: which routine it is
and where in the source it stands. `View` is what else decides how a frame is shown.
-/

namespace ReadableTrace

/-- A frame as it was captured. -/
structure Frame where
  /-- The active routine, if it could be told. -/
  routine : Option RoutineRef
  file : Option String
  line : Option UInt32
  deriving DecidableEq

namespace Frame

/-- A frame of a routine, without a place in the source. -/
def ofRoutine (r : RoutineRef) : Frame := ⟨some r, none, none⟩

/-- The place of a frame in the source. A missing file is shown as empty and a missing line as
zero. -/
def location (f : Frame) : String :=
  "in " ++ f.file.getD "" ++ ":line " ++ Decimal.text (f.line.getD 0).toNat

/-- The routine of a frame. A frame without one, and a routine that the catalog does not have, are
reported. -/
def resolve (f : Frame) (c : Catalog) : Except Fault (RoutineRef × Routine) :=
  match f.routine with
  | none => .error .noRoutine
  | some ref => (c.routine ref).map fun r => (ref, r)

theorem resolve_of_known {f : Frame} {c : Catalog} {ref : RoutineRef} {m : Routine}
    (hf : f.routine = some ref) (hm : c.routine? ref = some m) : f.resolve c = .ok (ref, m) := by
  simp only [Frame.resolve, Catalog.routine, hf, hm]
  rfl

end Frame

/-- What decides how a frame is shown. -/
structure View where
  catalog : Catalog
  /-- How the full names of the framework's own types begin. -/
  frameworkLead : String
  /-- Whether the place in the source is shown. -/
  showLocation : Bool

/-- What follows the text of a frame. -/
def View.suffix (v : View) (f : Frame) : String :=
  if v.showLocation then " " ++ f.location else ""

end ReadableTrace
