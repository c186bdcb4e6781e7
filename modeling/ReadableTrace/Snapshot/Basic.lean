import ReadableTrace.Frame.Basic

/-!
# Snapshots

A snapshot is a catalog together with frames to be shown against it, the innermost first. It is
taken in the program that failed and shown somewhere else.
-/

namespace ReadableTrace

/-- A catalog and frames to be shown against it. -/
structure Snapshot where
  catalog : Catalog
  frames : List Frame
  deriving DecidableEq

/-- The snapshot without entries and frames. -/
def Snapshot.empty : Snapshot := ⟨.empty, []⟩

end ReadableTrace
