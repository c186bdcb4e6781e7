import ReadableTrace.Proofs.Frame.Search
import ReadableTrace.Proofs.Spelling.Renaming
import ReadableTrace.Frame.Choice

/-!
# Frames under a renaming

A catalog with other references shows every frame alike, and where one catalog fails so does the
other, with the cause renamed. This holds of the searches for what a compiler moved
(`outcome_fieldHolding_rename`, `outcome_asyncMethodOf_rename`), of every style
(`outcome_body_rename`), of the choice of a style (`outcome_choose_rename`), and so of the text of a
frame (`outcome_render_rename`). None of them looks at the mark that hides a routine.
-/

namespace ReadableTrace

open Log Outcome

variable {ρ : Renaming} {c c' : Catalog} {t : TypeEntry} {ref : RoutineRef} {m m' : Routine}

namespace Frame

/-! ## Searches -/

theorem fieldIn?_rename (h : Renames ρ c c') (target : RoutineRef) :
    fieldIn? (t.rename ρ) (ρ.routine target) = (fieldIn? t target).map (·.rename ρ) := by
  have same : (fun f : Field => f.target == some (ρ.routine target)) ∘ Field.rename ρ =
      fun f => f.target == some target :=
    funext fun f => map_beq_some h.routine_injective f.target target
  rw [fieldIn?, fieldIn?, TypeEntry.rename, List.find?_map, same]

theorem outcome_fieldOutwards_rename (h : Renames ρ c c') (target : RoutineRef) (start r : TypeRef)
    (path : List TypeRef) :
    (fieldOutwards c' (ρ.routine target) (ρ.type start) (path.map ρ.type) (ρ.type r)).outcome =
      (fun p => (ρ.type p.1, p.2.rename ρ)) <$>
        (fieldOutwards c target start path r).outcome.mapError (·.rename ρ) := by
  induction path, r using Catalog.walk_induction (c := c) with
  | onPath path r hp =>
    rw [outcome_fieldOutwards_of_mem hp, outcome_fieldOutwards_of_mem (h.mem_path_iff.2 hp)]
    rfl
  | unknown path r hp hr =>
    rw [outcome_fieldOutwards_of_unknown hp hr,
      outcome_fieldOutwards_of_unknown (mt h.mem_path_iff.1 hp) (h.type?_of_unknown hr)]
    rfl
  | known path r t hp hr ih =>
    rw [outcome_fieldOutwards hp hr,
      outcome_fieldOutwards (mt h.mem_path_iff.1 hp) (h.type?_of_known hr), fieldIn?_rename h]
    cases fieldIn? t target with
    | some f => rfl
    | none =>
      simp only [Option.map_none, TypeEntry.rename]
      cases t.enclosing with
      | none => rfl
      | some outer => exact ih outer

theorem outcome_fieldHolding_rename (h : Renames ρ c c') (target : RoutineRef) (start : TypeRef) :
    (fieldHolding c' (ρ.routine target) (ρ.type start)).outcome =
      (fun p => (ρ.type p.1, p.2.rename ρ)) <$>
        (fieldHolding c target start).outcome.mapError (·.rename ρ) :=
  outcome_fieldOutwards_rename h target start start []

/-- The methods that are marked with a state machine, up to the mark that hides a routine. -/
theorem methodsMarked_rename (h : Renames ρ c c') (machine : TypeRef) :
    (methodsMarked c' (t.rename ρ) (ρ.type machine)).map (·.unmarked) =
      (methodsMarked c t machine).map fun m => (m.rename ρ).unmarked := by
  rw [methodsMarked, methodsMarked, TypeEntry.rename]
  generalize t.methods = refs
  induction refs with
  | nil => rfl
  | cons ref refs ih =>
    have hm := h.routine? ref
    cases hr : c.routine? ref with
    | none =>
      rw [hr, Option.map_none, Option.map_eq_none_iff] at hm
      simpa only [List.map_cons, List.filterMap_cons, hr, hm] using ih
    | some m =>
      rw [hr, Option.map_some, Option.map_eq_some_iff] at hm
      obtain ⟨m', hm', he⟩ := hm
      -- a mark of either kind leaves the state machine alone
      have same : (m'.machine == some (ρ.type machine)) = (m.machine == some machine) := by
        rw [← map_beq_some h.type_injective m.machine machine]
        exact congrArg (fun u : Routine => u.machine == some (ρ.type machine)) he
      simp only [List.map_cons, List.filterMap_cons, hr, hm', List.filter_cons, same]
      split
      · rw [List.map_cons, List.map_cons, he, ih]
      · exact ih

theorem outcome_asyncMethodOf_rename (h : Renames ρ c c') (outer machine : TypeRef) :
    Routine.unmarked <$> (asyncMethodOf c' (ρ.type outer) (ρ.type machine)).outcome =
      (fun m => (m.rename ρ).unmarked) <$>
        (asyncMethodOf c outer machine).outcome.mapError (·.rename ρ) := by
  simp only [asyncMethodOf, Logged.outcome_bind, Logged.outcome_lift, type_rename h, bind_map_left,
    mapError_bind, map_bind]
  refine bind_congr fun t => ?_
  have hl := methodsMarked_rename (t := t) h machine
  generalize methodsMarked c t machine = l at hl
  generalize methodsMarked c' (t.rename ρ) (ρ.type machine) = l' at hl
  rcases l with _ | ⟨m, _ | ⟨n, l⟩⟩ <;> rcases l' with _ | ⟨m', _ | ⟨n', l'⟩⟩ <;>
    simp only [List.map_cons, List.map_nil, List.cons.injEq, List.nil_eq, List.cons_ne_nil,
      and_false, and_true] at hl
  · rfl
  · exact congrArg Except.ok hl
  · have hn : l'.length = l.length := by simpa using congrArg List.length hl.2.2
    simp only [List.length_cons, hn]
    rfl

end Frame

/-! ## Parts -/

namespace View

/-- The same view of another catalog. -/
def against (v : View) (c : Catalog) : View := { v with catalog := c }

variable {v : View}

theorem outcome_type_rename (h : Renames ρ v.catalog c') (r : TypeRef) :
    ((v.against c').type (ρ.type r)).outcome = (v.type r).outcome.mapError (·.rename ρ) :=
  Spelling.outcome_ofType_rename h

theorem outcome_parameter_rename (h : Renames ρ v.catalog c') (p : Parameter) :
    ((v.against c').parameter (p.rename ρ)).outcome =
      (v.parameter p).outcome.mapError (·.rename ρ) :=
  Spelling.outcome_ofParameter_rename h p

theorem outcome_returned_rename (h : Renames ρ v.catalog c')
    (hm : m'.unmarked = (m.rename ρ).unmarked) :
    ((v.against c').returned m').outcome = (v.returned m).outcome.mapError (·.rename ρ) := by
  have hr : m'.returned = m.returned.map (·.rename ρ) := (congrArg Routine.returned hm :)
  have hn : m'.name = m.name := (congrArg Routine.name hm :)
  rw [returned, returned, hr, hn]
  cases m.returned with
  | none => rfl
  | some p => exact outcome_parameter_rename h p

theorem outcome_parameters_rename (h : Renames ρ v.catalog c')
    (hm : m'.unmarked = (m.rename ρ).unmarked) :
    ((v.against c').parameters m').outcome = (v.parameters m).outcome.mapError (·.rename ρ) := by
  have hp : m'.parameters = m.parameters.map (·.rename ρ) := (congrArg Routine.parameters hm :)
  simp only [parameters, hp, Logged.outcome_map, Logged.outcome_traverse, mapError_map,
    mapError_mapM, List.mapM_map, Function.comp_def, outcome_parameter_rename h]

theorem outcome_typeArguments_rename (h : Renames ρ v.catalog c')
    (hm : m'.unmarked = (m.rename ρ).unmarked) :
    ((v.against c').typeArguments m').outcome =
      (v.typeArguments m).outcome.mapError (·.rename ρ) := by
  have hg : m'.isGeneric = m.isGeneric := (congrArg Routine.isGeneric hm :)
  have ha : m'.genericArguments = m.genericArguments.map ρ.type :=
    (congrArg Routine.genericArguments hm :)
  rw [typeArguments, typeArguments, hg, ha]
  split
  · simp only [Logged.outcome_map, Logged.outcome_traverse, mapError_map, mapError_mapM,
      List.mapM_map, Function.comp_def, outcome_type_rename h]
  · rfl

end View

theorem declaringType_rename :
    (m.rename ρ).declaringType = ρ.type <$> m.declaringType.mapError (·.rename ρ) := by
  rw [Routine.declaringType, Routine.declaringType, Routine.rename]
  cases m.declaring <;> rfl

/-- Decoding a name speaks of no reference. -/
theorem mapError_decode {raw : String} :
    (Name.decode raw).mapError (·.rename ρ) = Name.decode raw := by
  cases h : Name.decode raw with
  | ok d => rfl
  | error e =>
    obtain ⟨rfl, -⟩ := Spelling.decode_eq_error_iff.1 h
    rfl

/-! ## Styles -/

namespace Style

variable {v : View}

theorem machineOf_rename :
    machineOf (m.rename ρ) = ρ.type <$> (machineOf m).mapError (·.rename ρ) := by
  rw [machineOf, machineOf, Routine.rename]
  cases m.declaring with
  | some r => rfl
  | none => cases m.reflected <;> rfl

theorem aroundMachine_rename (h : Renames ρ c c') (machine : TypeRef) :
    aroundMachine c' (ρ.type machine) =
      ρ.type <$> (aroundMachine c machine).mapError (·.rename ρ) := by
  simp only [aroundMachine, type_rename h, bind_map_left, mapError_bind, map_bind]
  refine bind_congr fun t => ?_
  rw [TypeEntry.rename]
  cases t.enclosing <;> rfl

theorem hasAccessor_rename (h : Renames ρ c c') (p : Property) :
    (p.rename ρ).hasAccessor (ρ.routine ref) = p.hasAccessor ref := by
  rw [Property.hasAccessor, Property.hasAccessor, Property.rename,
    map_beq_some h.routine_injective, map_beq_some h.routine_injective]

theorem isIndexer_rename (h : Renames ρ c c') :
    isIndexer c' (ρ.routine ref) (m.rename ρ) = (isIndexer c ref m).mapError (·.rename ρ) := by
  have count (ps : List Property) :
      ((ps.map (·.rename ρ)).find? (·.hasAccessor (ρ.routine ref))).any (0 < ·.indexCount) =
        (ps.find? (·.hasAccessor ref)).any (0 < ·.indexCount) := by
    rw [List.find?_map, Option.any_map]
    exact congrArg (fun q => (ps.find? q).any (0 < ·.indexCount))
      (funext fun p => hasAccessor_rename h p)
  rw [isIndexer, isIndexer, Routine.rename]
  split
  · cases m.declaring with
    | none => rfl
    | some owner =>
      simp only [Option.map_some]
      change _ <$> _ = (_ <$> _ : Except Fault Bool).mapError _
      rw [type_rename h, mapError_map, Functor.map_map]
      exact map_congr fun t => count t.properties
  · rfl

theorem outcome_lambdaBody_rename (h : Renames ρ v.catalog c') :
    (lambdaBody (v.against c') (ρ.routine ref) (m.rename ρ)).outcome =
      (lambdaBody v ref m).outcome.mapError (·.rename ρ) := by
  simp only [lambdaBody, Logged.outcome_bind, Logged.outcome_lift, declaringType_rename,
    bind_map_left, mapError_bind]
  refine bind_congr fun start => ?_
  have hf : (Frame.fieldHolding (v.against c').catalog (ρ.routine ref) (ρ.type start)).outcome =
      _ := Frame.outcome_fieldHolding_rename h ref start
  have ht (r) : (v.against c').catalog.type (ρ.type r) = _ := type_rename h
  simp only [hf, bind_map_left]
  refine bind_congr fun p => ?_
  have hfield : (p.2.rename ρ).type = ρ.type p.2.type := rfl
  simp only [hfield, View.outcome_type_rename h]
  refine bind_congr fun delegate => ?_
  rw [mapError_decode]
  refine bind_congr fun name => ?_
  simp only [ht, bind_map_left]
  refine bind_congr fun owner => bind_congr fun spelled => ?_
  split
  · rfl
  · simp only [Logged.outcome_bind, View.outcome_typeArguments_rename h rfl, mapError_bind]
    rfl

theorem outcome_asyncBody_rename (h : Renames ρ v.catalog c') :
    (asyncBody (v.against c') (m.rename ρ)).outcome =
      (asyncBody v m).outcome.mapError (·.rename ρ) := by
  simp only [asyncBody, Logged.outcome_bind, Logged.outcome_lift, machineOf_rename, bind_map_left,
    mapError_bind]
  refine bind_congr fun machine => ?_
  have ha : aroundMachine (v.against c').catalog (ρ.type machine) = _ :=
    aroundMachine_rename h machine
  simp only [ha, bind_map_left]
  refine bind_congr fun outer => ?_
  refine bind_congr_of_map (Frame.outcome_asyncMethodOf_rename h outer machine)
    fun source' source hs => ?_
  have hn : source'.name = source.name := (congrArg Routine.name hs :)
  simp only [hn, View.outcome_returned_rename h hs, View.outcome_type_rename h,
    View.outcome_typeArguments_rename h hs, View.outcome_parameters_rename h hs, mapError_decode]
  rfl

theorem outcome_methodBody_rename (h : Renames ρ v.catalog c') :
    (methodBody (v.against c') (ρ.routine ref) (m.rename ρ)).outcome =
      (methodBody v ref m).outcome.mapError (·.rename ρ) := by
  have hi : isIndexer (v.against c').catalog (ρ.routine ref) (m.rename ρ) = _ := isIndexer_rename h
  have hname : (m.rename ρ).name = m.name := rfl
  simp only [methodBody, Logged.outcome_bind, Logged.outcome_lift, mapError_bind,
    View.outcome_returned_rename h rfl, declaringType_rename, bind_map_left,
    View.outcome_type_rename h, View.outcome_parameters_rename h rfl, hi]
  refine bind_congr fun result => bind_congr fun owner => bind_congr fun declaring =>
    bind_congr fun parameters => bind_congr fun indexer => ?_
  cases indexer with
  | true => rfl
  | false =>
    simp only [if_false, Bool.false_eq_true, Logged.outcome_bind, Logged.outcome_lift, hname,
      View.outcome_typeArguments_rename h rfl, mapError_bind, mapError_decode]
    rfl

theorem outcome_constructorBody_rename (h : Renames ρ v.catalog c') :
    (constructorBody (v.against c') (m.rename ρ)).outcome =
      (constructorBody v m).outcome.mapError (·.rename ρ) := by
  have ht (r) : (v.against c').catalog.type (ρ.type r) = _ := type_rename h
  simp only [constructorBody, Logged.outcome_bind, Logged.outcome_lift, mapError_bind,
    declaringType_rename, bind_map_left, View.outcome_type_rename h, ht,
    View.outcome_typeArguments_rename h rfl, View.outcome_parameters_rename h rfl]
  rfl

/-- In every style, a routine has the same text under a renaming and however it is marked. -/
theorem outcome_body_rename (h : Renames ρ v.catalog c') (s : Style)
    (hm : m'.unmarked = (m.rename ρ).unmarked) :
    (s.body (v.against c') (ρ.routine ref) m').outcome =
      (s.body v ref m).outcome.mapError (·.rename ρ) := by
  have unmarked (m) : s.body (v.against c') (ρ.routine ref) m.unmarked =
      s.body (v.against c') (ρ.routine ref) m := by
    cases s <;> rfl
  rw [← unmarked m', hm, unmarked]
  cases s with
  | lambda => exact outcome_lambdaBody_rename h
  | asyncMethod => exact outcome_asyncBody_rename h
  | method => exact outcome_methodBody_rename h
  | constructor => exact outcome_constructorBody_rename h

theorem outcome_render_rename (h : Renames ρ v.catalog c') (s : Style) (f : Frame) :
    (s.render (v.against c') (f.rename ρ)).outcome =
      (s.render v f).outcome.mapError (·.rename ρ) := by
  simp only [render, Logged.outcome_bind, Logged.outcome_lift]
  refine resolve_bind_rename h f fun ref m m' hm => ?_
  simp only [outcome_body_rename h s hm, mapError_bind]
  rfl

theorem fits_rename (h : Renames ρ c c') (s : Style) (hm : m'.unmarked = (m.rename ρ).unmarked) :
    s.fits c' m' = s.fits c m := by
  have unmarked (m : Routine) : s.fits c' m.unmarked = s.fits c' m := by
    cases s <;> rfl
  rw [← unmarked m', hm, unmarked]
  cases s with
  | asyncMethod =>
    simp only [fits, Routine.rename, Routine.isMethod]
    cases m.reflected with
    | none => rfl
    | some r =>
      simp only [Option.map_some, Option.bind_some, h.type? r, Option.any_map]
      rfl
  | _ => rfl

theorem outcome_claims_rename (h : Renames ρ c c') (s : Style) (f : Frame) :
    (s.claims c' (f.rename ρ)).outcome = (s.claims c f).outcome.mapError (·.rename ρ) := by
  simp only [claims, Logged.outcome_bind, Logged.outcome_lift]
  refine resolve_bind_rename h f fun ref m m' hm => ?_
  rw [fits_rename h s hm]
  cases s.fits c m <;> rfl

end Style

/-! ## Frames -/

namespace Frame

theorem outcome_choose_rename (h : Renames ρ c c') (f : Frame) (styles : List Style) :
    (choose c' (f.rename ρ) styles).outcome =
      (choose c f styles).outcome.mapError (·.rename ρ) := by
  induction styles with
  | nil =>
    simp only [choose, Logged.outcome_bind, Logged.outcome_lift]
    refine resolve_bind_rename h f fun ref m m' hm => ?_
    have hn : m'.name = m.name := (congrArg Routine.name hm :)
    rw [hn]
    rfl
  | cons s styles ih =>
    simp only [choose, Logged.outcome_bind, Style.outcome_claims_rename h, mapError_bind]
    refine bind_congr fun claimed => ?_
    cases claimed with
    | true => rfl
    | false => exact ih

/-- A frame is shown alike under a renaming, and is refused for the renamed cause. -/
theorem outcome_render_rename {v : View} (h : Renames ρ v.catalog c') (f : Frame)
    (styles : List Style) :
    ((f.rename ρ).render (v.against c') styles).outcome =
      (f.render v styles).outcome.mapError (·.rename ρ) := by
  have hc : (choose (v.against c').catalog (f.rename ρ) styles).outcome = _ :=
    outcome_choose_rename h f styles
  simp only [render, Logged.outcome_bind, Logged.outcome_lift, hc]
  rw [mapError_bind]
  refine bind_congr fun style => ?_
  refine resolve_bind_rename h f fun ref m m' hm => ?_
  exact Style.outcome_render_rename h style f

end Frame

end ReadableTrace
