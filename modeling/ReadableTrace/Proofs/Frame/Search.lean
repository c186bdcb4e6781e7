import ReadableTrace.Proofs.Catalog.Walk
import ReadableTrace.Frame.Search

/-!
# One step of looking for a field

`Frame.fieldOutwards` looks at a type and goes on to the type around it. These are its outcomes by
cases: a type that was met before, an unknown type, and a known type, whose first field for the
routine ends the search (`outcome_fieldOutwards`).
-/

namespace ReadableTrace.Frame

open Log

variable {c : Catalog} {target : RoutineRef} {start r : TypeRef} {path : List TypeRef}
  {t : TypeEntry}

theorem outcome_fieldOutwards_of_mem (h : r ∈ path) :
    (fieldOutwards c target start path r).outcome = .error (.enclosingLoop start r) := by
  rw [fieldOutwards, dif_pos h]
  rfl

theorem outcome_fieldOutwards_of_unknown (h : r ∉ path) (hr : c.type? r = none) :
    (fieldOutwards c target start path r).outcome = .error (.noDelegateField target) := by
  rw [fieldOutwards, dif_neg h]
  split
  · rfl
  · rename_i hk
    rw [hr] at hk
    cases hk

theorem outcome_fieldOutwards (h : r ∉ path) (hr : c.type? r = some t) :
    (fieldOutwards c target start path r).outcome =
      match fieldIn? t target with
      | some f => .ok (r, f)
      | none =>
        match t.enclosing with
        | none => .error (.noDelegateField target)
        | some outer => (fieldOutwards c target start (r :: path) outer).outcome := by
  rw [fieldOutwards, dif_neg h]
  split
  · rename_i hk
    rw [hr] at hk
    cases hk
  · rename_i t' hk
    obtain rfl : t' = t := Option.some.inj (hk.symm.trans hr)
    cases fieldIn? t' target with
    | some f => rfl
    | none => cases t'.enclosing <;> rfl

end ReadableTrace.Frame
