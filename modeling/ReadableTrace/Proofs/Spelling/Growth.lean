import ReadableTrace.Proofs.Spelling.Composition
import ReadableTrace.Spelling.Parameter

/-!
# Catalogs that grow

A catalog may get more types behind its own (`Catalog.withTypes`). What is known stays known then,
while references that led nowhere may come to lead to one of the new types (`Catalog.GrowsTo`). A
spelling never changes by that (`kept_ofType`), and neither does the spelling of a parameter
(`kept_ofParameter`): the one test that takes an unknown type in silence, whether a type is a tuple,
is made for types whose definition is needed for their spelling as well.
-/

namespace ReadableTrace

open Log Outcome

/-! ## Growing -/

namespace Catalog

/-- The second catalog has the types of the first where the first has them, and the same
routines. -/
structure GrowsTo (c c' : Catalog) : Prop where
  type? {r t} : c.type? r = some t → c'.type? r = some t
  routines : c'.routines = c.routines

/-- The catalog with more types behind its own. -/
def withTypes (c : Catalog) (more : List TypeEntry) : Catalog :=
  { c with types := c.types ++ more.toArray }

variable {c c' : Catalog} {r : TypeRef} {ref : RoutineRef}

theorem growsTo_withTypes (c : Catalog) (more : List TypeEntry) : c.GrowsTo (c.withTypes more) where
  type? {r t} h := by
    have front := index_lt_of_type? h
    rw [Catalog.type?, withTypes, Array.getElem?_append_left front]
    exact h
  routines := rfl

theorem type_eq_ok_iff {t : TypeEntry} : c.type r = .ok t ↔ c.type? r = some t := by
  rw [Catalog.type]
  cases c.type? r <;> simp

theorem GrowsTo.routine? (h : c.GrowsTo c') : c'.routine? ref = c.routine? ref := by
  rw [Catalog.routine?, Catalog.routine?, h.routines]

theorem GrowsTo.kept_type (h : c.GrowsTo c') : Kept (c.type r) (c'.type r) := by
  intro t ht
  exact type_eq_ok_iff.2 (h.type? (type_eq_ok_iff.1 ht))

end Catalog

namespace Spelling

variable {c c' : Catalog} {lead s : String} {path : List TypeRef} {r d : TypeRef} {t : TypeEntry}
  {f g : TypeRef → Except Fault String} {args : List TypeRef}

/-! ## Types -/

theorem kept_definitionOf (h : c.GrowsTo c') (d : Option TypeRef) :
    Kept (definitionOf c t d) (definitionOf c' t d) := by
  cases d with
  | none => exact .refl _
  | some d => exact h.kept_type

theorem kept_ofHead (hf : ∀ a, Kept (f a) (g a)) : Kept (ofHead lead t f) (ofHead lead t g) := by
  rw [ofHead, ofHead]
  split
  · exact hf _
  · exact .refl _

theorem kept_ofEntry (h : c.GrowsTo c') (hf : ∀ a, Kept (f a) (g a)) :
    Kept (ofEntry c lead t f) (ofEntry c' lead t g) := by
  rw [ofEntry, ofEntry]
  split
  · exact .refl _
  · exact hf _
  · exact (hf _).map _
  · exact (hf _).map _
  · refine (kept_definitionOf h _).bind fun u _ => (kept_ofHead hf).bind fun n _ => ?_
    exact (Kept.mapM fun a _ => hf a).bind fun _ _ => .refl _

theorem kept_along (h : c.GrowsTo c') :
    Kept (along c lead path r).outcome (along c' lead path r).outcome := by
  induction path, r using Catalog.walk_induction (c := c) with
  | onPath path r hp =>
    rw [outcome_along_of_mem hp]
    exact .error _ _
  | unknown path r hp hr =>
    rw [outcome_along_of_unknown hp hr]
    exact .error _ _
  | known path r t hp hr ih =>
    rw [outcome_along hp hr, outcome_along hp (h.type? hr)]
    exact kept_ofEntry h ih

/-- The spelling of a type stays when the catalog grows. -/
theorem kept_ofType (h : c.GrowsTo c') :
    Kept (ofType c lead r).outcome (ofType c' lead r).outcome :=
  kept_along h

/-! ## Parameters -/

/-- A generic type whose definition is unknown is not spelled. -/
theorem ofType_ne_ok_of_unknown_definition (hr : c.type? r = some t)
    (hs : t.shape = .generic (some d) args) (hd : c.type? d = none) :
    (ofType c lead r).outcome ≠ .ok s := by
  intro h
  obtain ⟨u, n, ss, hu, -⟩ := (ofType_iff_of_generic hr hs).1 h
  rw [definitionOf_some_eq_ok_iff, hd] at hu
  cases hu

/-- Whether a type is in a family may change, but only if its definition was unknown. -/
theorem inFamily_of_growsTo {family : String} {arity : Option Nat} (h : c.GrowsTo c')
    (hr : c.type? r = some t)
    (known : ∀ d args, t.shape = .generic (some d) args → ∃ u, c.type? d = some u) :
    inFamily c' family r arity = inFamily c family r arity := by
  rw [inFamily, inFamily, Catalog.type_eq_ok_iff.2 hr, Catalog.type_eq_ok_iff.2 (h.type? hr),
    ok_bind, ok_bind]
  split
  · rename_i d args hs
    cases d with
    | none => rfl
    | some d =>
      obtain ⟨u, hu⟩ := known d args hs
      simp only [hu, h.type? hu]
  · rfl

theorem kept_elements (h : c.GrowsTo c') (names : List (Option String)) (position : Nat) :
    Kept (elements c lead names position args).outcome
      (elements c' lead names position args).outcome := by
  induction args generalizing position with
  | nil => exact .refl _
  | cons a args ih =>
    simp only [elements, Logged.outcome_bind, Logged.outcome_pure]
    exact (kept_ofType h).bind fun _ _ => (ih _).bind fun _ _ => .refl _

theorem kept_typeSegment {p : Parameter} (h : c.GrowsTo c') (hr : c.type? p.type = some t) :
    Kept (typeSegment c lead p t).outcome (typeSegment c' lead p t).outcome := by
  simp only [typeSegment]
  split
  · exact .refl _
  simp only [Logged.outcome_bind, Logged.outcome_lift]
  by_cases known : ∀ d args, t.shape = .generic (some d) args → ∃ u, c.type? d = some u
  · rw [inFamily_of_growsTo h hr known]
    refine (Kept.refl _).bind fun tuple _ => ?_
    cases tuple with
    | true =>
      simp only [if_true, Logged.outcome_bind, Logged.outcome_pure]
      exact (kept_elements h _ _).bind fun _ _ => .refl _
    | false => exact kept_ofType h
  · -- with its definition unknown, the type is no tuple, and has no other spelling either
    push Not at known
    obtain ⟨d, args, hs, hd⟩ := known
    have hd : c.type? d = none := Option.eq_none_iff_forall_ne_some.2 hd
    have single : inFamily c valueTupleLead p.type none = .ok false := by
      rw [inFamily, Catalog.type_eq_ok_iff.2 hr, ok_bind, hs]
      simp only [hd]
      rfl
    rw [single, ok_bind]
    intro s h'
    exact absurd h' (ofType_ne_ok_of_unknown_definition hr hs hd)

/-- The spelling of a parameter stays when the catalog grows. -/
theorem kept_ofParameter {p : Parameter} (h : c.GrowsTo c') :
    Kept (ofParameter c lead p).outcome (ofParameter c' lead p).outcome := by
  simp only [ofParameter, Logged.outcome_bind, Logged.outcome_lift, Logged.outcome_pure]
  refine h.kept_type.bind fun t ht => ?_
  exact (kept_typeSegment h (Catalog.type_eq_ok_iff.1 ht)).bind fun _ _ => .refl _

end Spelling

end ReadableTrace
