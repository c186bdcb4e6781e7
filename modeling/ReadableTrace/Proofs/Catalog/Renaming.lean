import ReadableTrace.Proofs.Outcome
import ReadableTrace.Frame.Basic
import Mathlib.Data.List.Basic

/-!
# Catalogs with other references

References are numbers without a meaning of their own. A `Renaming` gives every type and every
routine a new one, and `rename` carries it through the entries of the catalog, through frames and
through causes of failure. `Renames ρ c c'` says that `c'` has at the new reference what `c` has at
the old one. The marks for hidden routines need not agree, since they only decide which frames are
shown and not how (`Routine.unmarked`).

Looking an entry up commutes with a renaming (`type_rename`, `resolve_bind_rename`), and a renamed
cause of failure is of the same kind (`kind_rename`).
-/

namespace ReadableTrace

open Outcome

/-- New references for old ones. -/
structure Renaming where
  type : TypeRef → TypeRef
  routine : RoutineRef → RoutineRef

variable (ρ : Renaming)

/-! ## Entries -/

/-- A shape with new references. -/
def Shape.rename : Shape → Shape
  | .plain => .plain
  | .array e n => .array (ρ.type e) n
  | .byRef e => .byRef (ρ.type e)
  | .nullable u => .nullable (ρ.type u)
  | .generic d args => .generic (d.map ρ.type) (args.map ρ.type)

/-- A field with new references. -/
def Field.rename (f : Field) : Field :=
  { f with type := ρ.type f.type, target := f.target.map ρ.routine }

/-- A property with new references. -/
def Property.rename (p : Property) : Property :=
  { p with getter := p.getter.map ρ.routine, setter := p.setter.map ρ.routine }

/-- A type with new references. -/
def TypeEntry.rename (t : TypeEntry) : TypeEntry :=
  { t with
    shape := t.shape.rename ρ
    enclosing := t.enclosing.map ρ.type
    fields := t.fields.map (·.rename ρ)
    properties := t.properties.map (·.rename ρ)
    methods := t.methods.map ρ.routine }

/-- A parameter with new references. -/
def Parameter.rename (p : Parameter) : Parameter := { p with type := ρ.type p.type }

/-- A routine with new references. -/
def Routine.rename (r : Routine) : Routine :=
  { r with
    declaring := r.declaring.map ρ.type
    reflected := r.reflected.map ρ.type
    parameters := r.parameters.map (·.rename ρ)
    genericArguments := r.genericArguments.map ρ.type
    returned := r.returned.map (·.rename ρ)
    machine := r.machine.map ρ.type }

/-- A frame with new references. -/
def Frame.rename (f : Frame) : Frame := { f with routine := f.routine.map ρ.routine }

/-- A cause of failure with new references. -/
def Fault.rename : Fault → Fault
  | .unknownType t => .unknownType (ρ.type t)
  | .unknownRoutine r => .unknownRoutine (ρ.routine r)
  | .noRoutine => .noRoutine
  | .noReturn name => .noReturn name
  | .noDeclaringType name => .noDeclaringType name
  | .noStateMachine name => .noStateMachine name
  | .noEnclosingType m => .noEnclosingType (ρ.type m)
  | .blankName => .blankName
  | .unclaimed name => .unclaimed name
  | .selfReference t => .selfReference (ρ.type t)
  | .enclosingLoop start again => .enclosingLoop (ρ.type start) (ρ.type again)
  | .noDelegateField r => .noDelegateField (ρ.routine r)
  | .noAsyncMethod outer m => .noAsyncMethod (ρ.type outer) (ρ.type m)
  | .manyAsyncMethods n outer m => .manyAsyncMethods n (ρ.type outer) (ρ.type m)

@[simp] theorem Fault.kind_rename (e : Fault) : (e.rename ρ).kind = e.kind := by
  cases e <;> rfl

/-- A routine without the mark that hides it. -/
def Routine.unmarked (r : Routine) : Routine := { r with isHidden := false }

/-! ## Catalogs -/

/-- The second catalog is the first one with new references, except for the marks that hide
routines. -/
structure Renames (ρ : Renaming) (c c' : Catalog) : Prop where
  type_injective : Function.Injective ρ.type
  routine_injective : Function.Injective ρ.routine
  type? (r : TypeRef) : c'.type? (ρ.type r) = (c.type? r).map (·.rename ρ)
  routine? (r : RoutineRef) : (c'.routine? (ρ.routine r)).map (·.unmarked) =
    (c.routine? r).map fun m => (m.rename ρ).unmarked

variable {ρ} {c c' : Catalog} {r : TypeRef} {t : TypeEntry} {m m' : Routine}

namespace Renames

theorem mem_path_iff (h : Renames ρ c c') {path : List TypeRef} :
    ρ.type r ∈ path.map ρ.type ↔ r ∈ path :=
  List.mem_map_of_injective h.type_injective

theorem type?_of_unknown (h : Renames ρ c c') (hr : c.type? r = none) :
    c'.type? (ρ.type r) = none := by
  rw [h.type? r, hr, Option.map_none]

theorem type?_of_known (h : Renames ρ c c') (hr : c.type? r = some t) :
    c'.type? (ρ.type r) = some (t.rename ρ) := by
  rw [h.type? r, hr, Option.map_some]

end Renames

theorem type_rename (h : Renames ρ c c') :
    c'.type (ρ.type r) = (·.rename ρ) <$> (c.type r).mapError (·.rename ρ) := by
  rw [Catalog.type, Catalog.type, h.type? r]
  cases c.type? r <;> rfl

/-- A reference that may be missing is a given one exactly if the renamed ones are the same. -/
theorem map_beq_some {α β : Type} [DecidableEq α] [DecidableEq β] {f : α → β}
    (hf : Function.Injective f) (x : Option α) (a : α) :
    (x.map f == some (f a)) = (x == some a) := by
  rw [Bool.eq_iff_iff, beq_iff_eq, beq_iff_eq, ← Option.map_some,
    (Option.map_injective hf).eq_iff]

/-- What is done with the routine of a frame may be done with the renamed routine, in whatever way
that is marked. -/
theorem resolve_bind_rename {α : Type} (h : Renames ρ c c') (f : Frame)
    {k k' : RoutineRef × Routine → Except Fault α}
    (hk : ∀ ref m m', m'.unmarked = (m.rename ρ).unmarked →
      k' (ρ.routine ref, m') = (k (ref, m)).mapError (·.rename ρ)) :
    (f.rename ρ).resolve c' >>= k' = (f.resolve c >>= k).mapError (·.rename ρ) := by
  rw [Frame.resolve, Frame.resolve, Frame.rename]
  cases f.routine with
  | none => rfl
  | some ref =>
    have hm := h.routine? ref
    simp only [Option.map_some, Catalog.routine]
    cases hr : c.routine? ref with
    | none =>
      rw [hr, Option.map_none, Option.map_eq_none_iff] at hm
      rw [hm]
      rfl
    | some m =>
      rw [hr, Option.map_some, Option.map_eq_some_iff] at hm
      obtain ⟨m', hm', he⟩ := hm
      rw [hm']
      exact hk ref m m' he

/-! ## The same references -/

/-- The renaming that keeps every reference. -/
def Renaming.same : Renaming := ⟨id, id⟩

@[simp] theorem Shape.rename_same (s : Shape) : s.rename .same = s := by
  cases s <;> simp [Shape.rename, Renaming.same]

@[simp] theorem Field.rename_same (f : Field) : f.rename .same = f := by
  simp [Field.rename, Renaming.same]

@[simp] theorem Property.rename_same (p : Property) : p.rename .same = p := by
  simp [Property.rename, Renaming.same]

@[simp] theorem Parameter.rename_same (p : Parameter) : p.rename .same = p := rfl

@[simp] theorem Frame.rename_same (f : Frame) : f.rename .same = f := by
  simp [Frame.rename, Renaming.same]

@[simp] theorem TypeEntry.rename_same (t : TypeEntry) : t.rename .same = t := by
  have hf : Field.rename .same = id := funext Field.rename_same
  have hp : Property.rename .same = id := funext Property.rename_same
  rw [TypeEntry.rename, Shape.rename_same, hf, hp]
  simp [Renaming.same]

@[simp] theorem Routine.rename_same (m : Routine) : m.rename .same = m := by
  have hp : Parameter.rename .same = id := funext Parameter.rename_same
  rw [Routine.rename, hp]
  simp [Renaming.same]

@[simp] theorem Fault.rename_same (e : Fault) : e.rename .same = e := by
  cases e <;> rfl

/-- Catalogs that only differ in which routines are marked as hidden. -/
theorem Renames.of_unmarked (ht : c'.types = c.types)
    (hm : c'.routines.map (·.unmarked) = c.routines.map (·.unmarked)) : Renames .same c c' where
  type_injective := Function.injective_id
  routine_injective := Function.injective_id
  type? r := by
    simp only [TypeEntry.rename_same, Option.map_id', Catalog.type?, ht]
    rfl
  routine? r := by
    have h := congrArg (·[r.index.toNat]?) hm
    simp only [Array.getElem?_map] at h
    simp only [Routine.rename_same]
    exact h

end ReadableTrace
