import ReadableTrace.Files.Tree
import ReadableTrace.Log.Logged
import ReadableTrace.Snapshot.Reader

/-!
# Snapshots in files
-/

namespace ReadableTrace.Snapshot

open Log Files

/-- Why a snapshot cannot be had. -/
inductive Fault
  /-- The file cannot be read. -/
  | unreadable
  /-- The file does not hold a snapshot. -/
  | malformed
  deriving DecidableEq

/-- The snapshot in a file. -/
def load (t : Tree) (path : String) : Logged Fault Snapshot :=
  match t.read? path with
  | none => Logged.fail .unreadable
  | some text =>
    match ofText? text with
    | none => Logged.fail .malformed
    | some s => do
      Logged.note (.snapshotLoaded path s.catalog.types.size s.catalog.routines.size
        s.frames.length)
      pure s

end ReadableTrace.Snapshot
