import ReadableTrace.Proofs.Catalog.Renaming
import ReadableTrace.Proofs.Spelling.Step
import ReadableTrace.Proofs.Spelling.Names
import ReadableTrace.Spelling.Parameter

/-!
# Spelling under a renaming

A catalog with other references spells every type and every parameter alike, and where one catalog
fails so does the other, with the cause renamed (`outcome_along_rename`, `outcome_ofType_rename`,
`outcome_ofParameter_rename`).
-/

namespace ReadableTrace.Spelling

open Log Outcome

variable {ρ : Renaming} {c c' : Catalog} {lead : String} {path : List TypeRef} {r : TypeRef}
  {t : TypeEntry} {f f' : TypeRef → Except Fault String}

/-! ## Types -/

/-- Names hold no references. -/
@[simp] theorem mapError_outcome_ofNames :
    (ofNames lead t).outcome.mapError (·.rename ρ) = (ofNames lead t).outcome := by
  cases h : (ofNames lead t).outcome with
  | ok s => rfl
  | error e =>
    obtain ⟨rfl, -⟩ := outcome_ofNames_eq_error_iff.1 h
    rfl

theorem definitionOf_rename (h : Renames ρ c c') (d : Option TypeRef) :
    definitionOf c' (t.rename ρ) (d.map ρ.type) =
      (·.rename ρ) <$> (definitionOf c t d).mapError (·.rename ρ) := by
  cases d with
  | none => rfl
  | some d => exact type_rename h

theorem ofHead_rename (hf : ∀ a, f' (ρ.type a) = (f a).mapError (·.rename ρ)) :
    ofHead lead (t.rename ρ) f' = (ofHead lead t f).mapError (·.rename ρ) := by
  rw [ofHead, ofHead, TypeEntry.rename]
  cases t.shape with
  | byRef e => exact hf e
  | _ => exact mapError_outcome_ofNames.symm

theorem ofEntry_rename (h : Renames ρ c c')
    (hf : ∀ a, f' (ρ.type a) = (f a).mapError (·.rename ρ)) :
    ofEntry c' lead (t.rename ρ) f' = (ofEntry c lead t f).mapError (·.rename ρ) := by
  rw [ofEntry, ofEntry]
  cases hs : t.shape with
  | plain =>
    simp only [TypeEntry.rename, hs, Shape.rename]
    exact mapError_outcome_ofNames.symm
  | byRef e =>
    simp only [TypeEntry.rename, hs, Shape.rename]
    exact hf e
  | nullable u =>
    simp only [TypeEntry.rename, hs, Shape.rename, mapError_map, hf]
  | array e n =>
    simp only [TypeEntry.rename, hs, Shape.rename, mapError_map, hf]
  | generic d args =>
    have hr : (t.rename ρ).shape = .generic (d.map ρ.type) (args.map ρ.type) := by
      rw [TypeEntry.rename, hs, Shape.rename]
    simp only [hr, definitionOf_rename h, mapError_bind, mapError_pure, mapError_mapM, hf,
      List.mapM_map, bind_map_left, ofHead_rename hf, Function.comp_def]

/-- A type is spelled alike by its new reference, and is refused for the renamed cause. -/
theorem outcome_along_rename (h : Renames ρ c c') :
    (along c' lead (path.map ρ.type) (ρ.type r)).outcome =
      (along c lead path r).outcome.mapError (·.rename ρ) := by
  induction path, r using Catalog.walk_induction (c := c) with
  | onPath path r hp =>
    rw [outcome_along_of_mem hp, outcome_along_of_mem (h.mem_path_iff.2 hp)]
    rfl
  | unknown path r hp hr =>
    rw [outcome_along_of_unknown hp hr,
      outcome_along_of_unknown (mt h.mem_path_iff.1 hp) (h.type?_of_unknown hr)]
    rfl
  | known path r t hp hr ih =>
    rw [outcome_along hp hr, outcome_along (mt h.mem_path_iff.1 hp) (h.type?_of_known hr)]
    exact ofEntry_rename h ih

theorem outcome_ofType_rename (h : Renames ρ c c') :
    (ofType c' lead (ρ.type r)).outcome = (ofType c lead r).outcome.mapError (·.rename ρ) := by
  show (along c' lead (List.map ρ.type []) (ρ.type r)).outcome = _
  exact outcome_along_rename h

/-! ## Parameters -/

theorem inFamily_rename (h : Renames ρ c c') (arity : Option Nat) :
    inFamily c' lead (ρ.type r) arity = (inFamily c lead r arity).mapError (·.rename ρ) := by
  rw [inFamily, inFamily, type_rename h, bind_map_left, mapError_bind]
  refine bind_congr fun t => ?_
  cases hs : t.shape with
  | generic d args =>
    simp only [TypeEntry.rename, hs, Shape.rename, mapError_pure, List.length_map]
    cases d with
    | none => rfl
    | some d =>
      simp only [Option.map_some, h.type? d]
      cases c.type? d <;> rfl
  | _ => simp only [TypeEntry.rename, hs, Shape.rename, mapError_pure]

theorem outcome_elements_rename (h : Renames ρ c c') (names : List (Option String))
    (args : List TypeRef) (position : Nat) :
    (elements c' lead names position (args.map ρ.type)).outcome =
      (elements c lead names position args).outcome.mapError (·.rename ρ) := by
  induction args generalizing position with
  | nil => rfl
  | cons a args ih =>
    simp only [List.map_cons, elements, Logged.outcome_bind, Logged.outcome_pure,
      outcome_ofType_rename h, ih, mapError_bind, mapError_ok]

@[simp] theorem arguments_rename : (t.rename ρ).arguments = t.arguments.map ρ.type := by
  rw [TypeEntry.arguments, TypeEntry.arguments, TypeEntry.rename]
  cases t.shape <;> rfl

@[simp] theorem isByRef_rename : (t.rename ρ).isByRef = t.isByRef := by
  rw [TypeEntry.isByRef, TypeEntry.isByRef, TypeEntry.rename]
  cases t.shape <;> rfl

theorem outcome_typeSegment_rename (h : Renames ρ c c') (p : Parameter) :
    (typeSegment c' lead (p.rename ρ) (t.rename ρ)).outcome =
      (typeSegment c lead p t).outcome.mapError (·.rename ρ) := by
  rw [typeSegment, typeSegment, Parameter.rename]
  by_cases hd : p.isDynamic = true
  · simp [hd]
  · simp only [hd, if_false, Bool.false_eq_true, Logged.outcome_bind, Logged.outcome_lift,
      inFamily_rename h, mapError_bind]
    refine bind_congr fun tuple => ?_
    cases tuple with
    | true =>
      simp only [if_true, Logged.outcome_bind, Logged.outcome_pure, arguments_rename,
        outcome_elements_rename h, mapError_bind, mapError_ok]
    | false =>
      simp only [if_false, Bool.false_eq_true, outcome_ofType_rename h]

/-- A parameter is spelled alike with its new reference. -/
theorem outcome_ofParameter_rename (h : Renames ρ c c') (p : Parameter) :
    (ofParameter c' lead (p.rename ρ)).outcome =
      (ofParameter c lead p).outcome.mapError (·.rename ρ) := by
  have passing_rename (t) : passing (p.rename ρ) (t.rename ρ) = passing p t := by
    simp only [passing, Parameter.rename, isByRef_rename]
  have hp : (p.rename ρ).type = ρ.type p.type := rfl
  simp only [ofParameter, Logged.outcome_bind, Logged.outcome_lift, Logged.outcome_pure, hp,
    type_rename h, bind_map_left, outcome_typeSegment_rename h, mapError_bind, mapError_ok,
    passing_rename]
  rfl

end ReadableTrace.Spelling
