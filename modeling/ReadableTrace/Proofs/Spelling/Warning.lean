import ReadableTrace.Proofs.Log.Warning
import ReadableTrace.Proofs.Spelling.Step
import ReadableTrace.Spelling.Parameter

/-!
# Warnings of spelling

Spelling a type warns of a type that is built from itself, and of nothing else, however deep in the
spelling it is found (`warnsOnly_ofType`); spelling a parameter adds nothing to that
(`warnsOnly_ofParameter`).
-/

namespace ReadableTrace

open Log Logged

variable {c : Catalog} {lead : String} {r : TypeRef} {t : TypeEntry}

/-! ## Outcomes without warnings -/

theorem Catalog.unwarned_type : Unwarned (c.type r) := by
  rw [Catalog.type]
  split <;> rfl

theorem Name.unwarned_decode (raw : String) : Unwarned (decode raw) := by
  rw [decode]
  split <;> rfl

namespace Spelling

theorem unwarned_definitionOf (d : Option TypeRef) : Unwarned (definitionOf c t d) := by
  cases d with
  | none => rfl
  | some d => exact Catalog.unwarned_type

theorem unwarned_inFamily (arity : Option Nat) : Unwarned (inFamily c lead r arity) := by
  refine Catalog.unwarned_type.bind fun entry => ?_
  split <;> rfl

/-! ## Types -/

theorem warnsOnly_ofNames (lead : String) (t : TypeEntry) : (ofNames lead t).WarnsOnly := by
  rw [ofNames]
  split
  · exact .lift ((Name.unwarned_decode _).map _)
  · split
    · exact (WarnsOnly.note rfl).bind fun _ => .pure _
    · split
      · exact (WarnsOnly.note rfl).bind fun _ => .pure _
      · exact .lift ((Name.unwarned_decode _).map _)

theorem warnsOnly_along (c : Catalog) (lead : String) (path : List TypeRef) (r : TypeRef) :
    (along c lead path r).WarnsOnly := by
  induction path, r using Catalog.walk_induction (c := c) with
  | onPath path r hp =>
    rw [along_of_mem hp]
    exact .report rfl rfl
  | unknown path r hp hr =>
    rw [along_of_unknown hp hr]
    exact .fail rfl
  | known path r t hp hr ih =>
    rw [along_of_known hp hr]
    -- the types behind are spelled along the longer path
    cases t.shape with
    | plain => exact warnsOnly_ofNames lead t
    | byRef a => exact ih a
    | nullable a => exact (ih a).map _
    | array a n => exact (ih a).map _
    | generic d args =>
      refine (WarnsOnly.lift (unwarned_definitionOf d)).bind fun u => ?_
      refine WarnsOnly.bind ?_ fun _ => (WarnsOnly.traverse ih args).bind fun _ => .pure _
      split
      · exact ih _
      · exact warnsOnly_ofNames lead u

theorem warnsOnly_ofType (c : Catalog) (lead : String) (r : TypeRef) :
    (ofType c lead r).WarnsOnly :=
  warnsOnly_along c lead [] r

/-! ## Parameters -/

theorem warnsOnly_elements (names : List (Option String)) (position : Nat) (rs : List TypeRef) :
    (elements c lead names position rs).WarnsOnly := by
  induction rs generalizing position with
  | nil => exact .pure _
  | cons r rs ih =>
    rw [elements]
    exact (warnsOnly_ofType c lead r).bind fun _ => (ih _).bind fun _ => .pure _

theorem warnsOnly_typeSegment (p : Parameter) : (typeSegment c lead p t).WarnsOnly := by
  rw [typeSegment]
  split
  · exact .pure _
  · refine (WarnsOnly.lift (unwarned_inFamily _)).bind fun isTuple => ?_
    split
    · exact (warnsOnly_elements _ _ _).bind fun _ => .pure _
    · exact warnsOnly_ofType c lead _

theorem warnsOnly_ofParameter (c : Catalog) (lead : String) (p : Parameter) :
    (ofParameter c lead p).WarnsOnly := by
  rw [ofParameter]
  refine (WarnsOnly.lift Catalog.unwarned_type).bind fun t => ?_
  exact (warnsOnly_typeSegment p).bind fun _ => .pure _

end Spelling

end ReadableTrace
