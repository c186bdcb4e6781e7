import ReadableTrace.Catalog.Entry
import ReadableTrace.Fault

/-!
# The catalog

All types and routines that a trace may speak of, each found by its position. `Catalog.type?` and
`Catalog.routine?` look an entry up; `Catalog.type` and `Catalog.routine` do so for a reference that
is needed, and report a missing entry.
-/

namespace ReadableTrace

/-- The known types and routines. -/
structure Catalog where
  types : Array TypeEntry
  routines : Array Routine
  deriving DecidableEq

namespace Catalog

/-- The catalog without entries. -/
def empty : Catalog := ⟨#[], #[]⟩

/-- The type at a position, if there is one. -/
def type? (c : Catalog) (r : TypeRef) : Option TypeEntry := c.types[r.index.toNat]?

/-- The routine at a position, if there is one. -/
def routine? (c : Catalog) (r : RoutineRef) : Option Routine := c.routines[r.index.toNat]?

/-- The type at a position; a missing one is reported. -/
def type (c : Catalog) (r : TypeRef) : Except Fault TypeEntry :=
  match c.type? r with
  | some t => .ok t
  | none => .error (.unknownType r)

/-- The routine at a position; a missing one is reported. -/
def routine (c : Catalog) (r : RoutineRef) : Except Fault Routine :=
  match c.routine? r with
  | some m => .ok m
  | none => .error (.unknownRoutine r)

/-- Whether a routine is there and marked as not to be shown. -/
def isHidden (c : Catalog) (r : RoutineRef) : Bool := (c.routine? r).any (·.isHidden)

/-- The first type of a full name. -/
def findType? (c : Catalog) (fullName : String) : Option TypeRef :=
  (c.types.findIdx? (·.fullName == some fullName)).map fun i => ⟨UInt32.ofNat i⟩

/-! ## Types not yet visited -/

/-- How many types of the catalog are not on a path. A walk that only goes on to types of the
catalog, and never twice to one, makes this smaller at every step. -/
def outside (c : Catalog) (path : List TypeRef) : Nat :=
  (List.range c.types.size).countP fun i => !path.any (·.index.toNat == i)

theorem index_lt_of_type? {c : Catalog} {r : TypeRef} {t : TypeEntry} (h : c.type? r = some t) :
    r.index.toNat < c.types.size :=
  (Array.getElem?_eq_some_iff.1 h).1

/-- Going on to a type of the catalog that is not on the path leaves fewer types outside it. -/
theorem outside_cons_lt {c : Catalog} {r : TypeRef} {t : TypeEntry} {path : List TypeRef}
    (known : c.type? r = some t) (fresh : r ∉ path) : c.outside (r :: path) < c.outside path := by
  have notOn : path.any (·.index.toNat == r.index.toNat) = false := by
    rw [List.any_eq_false]
    intro q hq same
    have : q = r := by
      cases q; cases r
      simp only [beq_iff_eq, UInt32.toNat_inj] at same
      rw [same]
    exact fresh (this ▸ hq)
  have mono : ∀ l : List Nat,
      l.countP (fun i => !(r :: path).any (·.index.toNat == i))
        ≤ l.countP (fun i => !path.any (·.index.toNat == i)) := by
    intro l
    refine List.countP_mono_left fun i _ h => ?_
    simp only [List.any_cons, Bool.not_or, Bool.and_eq_true] at h
    exact h.2
  obtain ⟨front, back, split⟩ :=
    List.append_of_mem (List.mem_range.2 (index_lt_of_type? known))
  have hf := mono front
  have hb := mono back
  simp only [outside, split, List.countP_append, List.countP_cons]
  simp only [notOn, List.any_cons, beq_self_eq_true, Bool.true_or, Bool.not_true, Bool.not_false,
    if_true, if_false, Bool.false_eq_true]
  simp only [List.any_cons] at hf hb
  omega

end Catalog

end ReadableTrace
