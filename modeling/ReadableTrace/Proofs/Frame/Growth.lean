import ReadableTrace.Proofs.Frame.Renaming
import ReadableTrace.Proofs.Spelling.Growth

/-!
# Frames in a catalog that grows

What a style shows of a frame stays when the catalog gets more types (`Style.kept_render`). The
choice of a style stays as well, unless the reflected type of a routine was unknown: such a type may
turn out to be a state machine (`Frame.choose_of_growsTo`).
-/

namespace ReadableTrace

open Log Outcome

variable {c c' : Catalog} {v : View} {ref : RoutineRef} {m : Routine} {t : TypeEntry}

namespace Frame

/-! ## Searches -/

theorem kept_fieldOutwards (h : c.GrowsTo c') (target : RoutineRef) (start r : TypeRef)
    (path : List TypeRef) :
    Kept (fieldOutwards c target start path r).outcome
      (fieldOutwards c' target start path r).outcome := by
  induction path, r using Catalog.walk_induction (c := c) with
  | onPath path r hp =>
    rw [outcome_fieldOutwards_of_mem hp]
    exact .error _ _
  | unknown path r hp hr =>
    rw [outcome_fieldOutwards_of_unknown hp hr]
    exact .error _ _
  | known path r t hp hr ih =>
    rw [outcome_fieldOutwards hp hr, outcome_fieldOutwards hp (h.type? hr)]
    split
    · exact .refl _
    · split
      · exact .refl _
      · exact ih _

theorem methodsMarked_of_growsTo (h : c.GrowsTo c') (machine : TypeRef) :
    methodsMarked c' t machine = methodsMarked c t machine := by
  have same : c'.routine? = c.routine? := funext fun _ => h.routine?
  rw [methodsMarked, methodsMarked, same]

theorem kept_asyncMethodOf (h : c.GrowsTo c') (outer machine : TypeRef) :
    Kept (asyncMethodOf c outer machine).outcome (asyncMethodOf c' outer machine).outcome := by
  simp only [asyncMethodOf, Logged.outcome_bind, Logged.outcome_lift, methodsMarked_of_growsTo h]
  exact h.kept_type.bind fun _ _ => .refl _

end Frame

/-! ## Parts -/

namespace View

theorem kept_type (h : v.catalog.GrowsTo c') (r : TypeRef) :
    Kept (v.type r).outcome ((v.against c').type r).outcome :=
  Spelling.kept_ofType h

theorem kept_parameter (h : v.catalog.GrowsTo c') (p : Parameter) :
    Kept (v.parameter p).outcome ((v.against c').parameter p).outcome :=
  Spelling.kept_ofParameter h

theorem kept_returned (h : v.catalog.GrowsTo c') :
    Kept (v.returned m).outcome ((v.against c').returned m).outcome := by
  rw [returned, returned]
  split
  · exact kept_parameter h _
  · exact .refl _

theorem kept_parameters (h : v.catalog.GrowsTo c') :
    Kept (v.parameters m).outcome ((v.against c').parameters m).outcome := by
  simp only [parameters, Logged.outcome_map, Logged.outcome_traverse]
  exact (Kept.mapM fun p _ => kept_parameter h p).map _

theorem kept_typeArguments (h : v.catalog.GrowsTo c') :
    Kept (v.typeArguments m).outcome ((v.against c').typeArguments m).outcome := by
  rw [typeArguments, typeArguments]
  split
  · simp only [Logged.outcome_map, Logged.outcome_traverse]
    exact (Kept.mapM fun r _ => kept_type h r).map _
  · exact .refl _

end View

/-! ## Styles -/

namespace Style

theorem kept_lambdaBody (h : v.catalog.GrowsTo c') :
    Kept (lambdaBody v ref m).outcome (lambdaBody (v.against c') ref m).outcome := by
  simp only [lambdaBody, Logged.outcome_bind, Logged.outcome_lift]
  refine (Kept.refl _).bind fun start _ => ?_
  refine (Frame.kept_fieldOutwards h ref start start []).bind fun p _ => ?_
  refine (View.kept_type h _).bind fun delegate _ => (Kept.refl _).bind fun name _ => ?_
  refine (h.kept_type).bind fun owner _ => (View.kept_type h _).bind fun spelled _ => ?_
  split
  · exact .refl _
  · simp only [Logged.outcome_bind]
    exact (View.kept_typeArguments h).bind fun _ _ => .refl _

theorem kept_aroundMachine (h : c.GrowsTo c') (machine : TypeRef) :
    Kept (aroundMachine c machine) (aroundMachine c' machine) :=
  h.kept_type.bind fun _ _ => .refl _

theorem kept_asyncBody (h : v.catalog.GrowsTo c') :
    Kept (asyncBody v m).outcome (asyncBody (v.against c') m).outcome := by
  simp only [asyncBody, Logged.outcome_bind, Logged.outcome_lift]
  refine (Kept.refl _).bind fun machine _ => (kept_aroundMachine h _).bind fun outer _ => ?_
  refine (Frame.kept_asyncMethodOf h _ _).bind fun source _ => ?_
  refine (View.kept_returned h).bind fun result _ => (View.kept_type h _).bind fun declaring _ => ?_
  refine (Kept.refl _).bind fun name _ => (View.kept_typeArguments h).bind fun arguments _ => ?_
  exact (View.kept_parameters h).bind fun _ _ => .refl _

theorem kept_isIndexer (h : c.GrowsTo c') : Kept (isIndexer c ref m) (isIndexer c' ref m) := by
  rw [isIndexer, isIndexer]
  split
  · split
    · exact .refl _
    · exact h.kept_type.map _
  · exact .refl _

theorem kept_methodBody (h : v.catalog.GrowsTo c') :
    Kept (methodBody v ref m).outcome (methodBody (v.against c') ref m).outcome := by
  simp only [methodBody, Logged.outcome_bind, Logged.outcome_lift]
  refine (View.kept_returned h).bind fun result _ => (Kept.refl _).bind fun owner _ => ?_
  refine (View.kept_type h _).bind fun declaring _ => ?_
  refine (View.kept_parameters h).bind fun parameters _ => ?_
  refine (kept_isIndexer h).bind fun indexer _ => ?_
  split
  · exact .refl _
  · simp only [Logged.outcome_bind, Logged.outcome_lift]
    refine (Kept.refl _).bind fun name _ => ?_
    exact (View.kept_typeArguments h).bind fun _ _ => .refl _

theorem kept_constructorBody (h : v.catalog.GrowsTo c') :
    Kept (constructorBody v m).outcome (constructorBody (v.against c') m).outcome := by
  simp only [constructorBody, Logged.outcome_bind, Logged.outcome_lift]
  refine (Kept.refl _).bind fun owner _ => h.kept_type.bind fun entry _ => ?_
  refine (View.kept_type h _).bind fun spelled _ => ?_
  refine (View.kept_typeArguments h).bind fun arguments _ => ?_
  exact (View.kept_parameters h).bind fun _ _ => .refl _

theorem kept_body (h : v.catalog.GrowsTo c') (s : Style) :
    Kept (s.body v ref m).outcome (s.body (v.against c') ref m).outcome := by
  cases s with
  | lambda => exact kept_lambdaBody h
  | asyncMethod => exact kept_asyncBody h
  | method => exact kept_methodBody h
  | constructor => exact kept_constructorBody h

end Style

namespace Frame

variable {f : Frame}

theorem resolve_of_growsTo (h : c.GrowsTo c') : f.resolve c' = f.resolve c := by
  rw [resolve, resolve]
  split
  · rfl
  · rw [Catalog.routine, Catalog.routine, h.routine?]

end Frame

namespace Style

variable {f : Frame}

/-- What a style shows of a frame stays when the catalog grows. -/
theorem kept_render (h : v.catalog.GrowsTo c') (s : Style) :
    Kept (s.render v f).outcome (s.render (v.against c') f).outcome := by
  have resolved : f.resolve (v.against c').catalog = f.resolve v.catalog :=
    Frame.resolve_of_growsTo h
  simp only [render, Logged.outcome_bind, Logged.outcome_lift, resolved]
  exact (Kept.refl _).bind fun p _ => (kept_body h s).bind fun _ _ => .refl _

/-- The class of routines that a style claims stays, as far as reflected types are known. -/
theorem fits_of_growsTo (h : c.GrowsTo c') (s : Style)
    (known : ∀ r, m.reflected = some r → ∃ t, c.type? r = some t) : s.fits c' m = s.fits c m := by
  cases s with
  | asyncMethod =>
    have same : m.reflected.bind c'.type? = m.reflected.bind c.type? := by
      cases hr : m.reflected with
      | none => rfl
      | some r =>
        obtain ⟨t, ht⟩ := known r hr
        rw [Option.bind_some, Option.bind_some, ht, h.type? ht]
    rw [fits, fits, same]
  | _ => rfl

end Style

namespace Frame

variable {f : Frame}

/-- The frame can be told to be a step of a state machine or not: if its routine has a reflected
type, then this is in the catalog. -/
def ReflectsKnown (c : Catalog) (f : Frame) : Prop :=
  ∀ ref m r, f.routine = some ref → c.routine? ref = some m → m.reflected = some r →
    ∃ t, c.type? r = some t

theorem routine?_of_resolve (h : f.resolve c = .ok (ref, m)) :
    f.routine = some ref ∧ c.routine? ref = some m := by
  rw [resolve] at h
  split at h
  · cases h
  · rename_i ref' hf
    obtain ⟨m', hm, he⟩ := map_eq_ok_iff.1 h
    cases he
    rw [Catalog.routine] at hm
    split at hm
    · rename_i hr
      obtain rfl := Except.ok.inj hm
      exact ⟨hf, hr⟩
    · cases hm

theorem claims_of_growsTo (h : c.GrowsTo c') (s : Style) (known : f.ReflectsKnown c) :
    s.claims c' f = s.claims c f := by
  rw [Style.claims, Style.claims, resolve_of_growsTo h]
  cases hr : f.resolve c with
  | error e => rfl
  | ok p =>
    obtain ⟨hf, hm⟩ := routine?_of_resolve hr
    have lifted : Logged.lift (.ok p) = (pure p : Logged Fault _) := rfl
    simp only [lifted, pure_bind, Style.fits_of_growsTo h s fun r => known _ _ r hf hm]

theorem choose_of_growsTo (h : c.GrowsTo c') (styles : List Style) (known : f.ReflectsKnown c) :
    choose c' f styles = choose c f styles := by
  induction styles with
  | nil => rw [choose, choose, resolve_of_growsTo h]
  | cons s styles ih => rw [choose, choose, claims_of_growsTo h s known, ih]

/-- A frame that is shown stays as it is when the catalog grows. -/
theorem kept_render (h : v.catalog.GrowsTo c') (styles : List Style)
    (known : f.ReflectsKnown v.catalog) :
    Kept (f.render v styles).outcome (f.render (v.against c') styles).outcome := by
  have chosen : choose (v.against c').catalog f styles = choose v.catalog f styles :=
    choose_of_growsTo h styles known
  have resolved : f.resolve (v.against c').catalog = f.resolve v.catalog := resolve_of_growsTo h
  simp only [render, Logged.outcome_bind, Logged.outcome_lift, chosen, resolved]
  refine (Kept.refl _).bind fun s _ => (Kept.refl _).bind fun p _ => ?_
  exact (Kept.refl _).bind fun _ _ => Style.kept_render h s

end Frame

end ReadableTrace
