import ReadableTrace.Proofs.Spelling.Composition
import ReadableTrace.Frame.Text

/-!
# Async methods are shown as methods

The text of a method and that of an async method are put together from the same parts, which are
asked for in different orders. `MethodParts` are these parts, and `MethodParts.Of` says that they
are the parts of a routine. In both styles there is a text exactly if the routine has parts
(`outcome_methodBody_eq_ok_iff`, `outcome_asyncBody_eq_ok_iff`), so that the order does not matter
for whether there is one.

A step of a state machine is tied to its method by `Frame.StepOf`. Unless the method is an indexer
or has an inner name, the step is shown as the method would be, with a word in front
(`render_asyncMethod_iff`).
-/

namespace ReadableTrace

open Log Outcome

/-! ## Parts -/

/-- What a routine returns is spelled like its type, if this is plain. -/
theorem View.outcome_parameter_returning {v : View} {a : TypeRef} {t : TypeEntry}
    (ht : v.catalog.type? a = some t) (hs : t.shape = .plain) :
    (v.parameter (.returning a)).outcome = (v.type a).outcome := by
  have known : v.catalog.type (Parameter.returning a).type = .ok t := by
    rw [Parameter.returning, Catalog.type, ht]
  have family : Spelling.inFamily v.catalog Spelling.valueTupleLead (Parameter.returning a).type
      none = .ok false := by
    simp only [Spelling.inFamily, known, ok_bind, hs]
    rfl
  have checked : (Parameter.returning a).isDynamic = false := rfl
  have segment : (Spelling.typeSegment v.catalog v.frameworkLead (.returning a) t).outcome =
      (v.type a).outcome := by
    simp only [Spelling.typeSegment, checked, Bool.false_eq_true, if_false, Logged.outcome_bind,
      Logged.outcome_lift, family, ok_bind]
    rfl
  have bare : Spelling.passing (.returning a) t = "" := by
    simp [Spelling.passing, Parameter.returning, TypeEntry.isByRef, hs]
  simp only [View.parameter, Spelling.ofParameter, Logged.outcome_bind, Logged.outcome_lift,
    Logged.outcome_pure, known, segment, ok_bind, bare]
  cases (v.type a).outcome with
  | error e => rfl
  | ok s => exact congrArg Except.ok (by simp [Parameter.returning, Spelling.nameSegment,
      Spelling.defaultSegment, Text.nonBlank])

/-- What the text of a method is put together from. -/
structure MethodParts where
  /-- What the method returns. -/
  result : String
  /-- The type that the method belongs to. -/
  declaring : String
  name : Name.Decoded
  /-- The type arguments, without brackets. -/
  arguments : String
  /-- The parameters, without parentheses. -/
  parameters : String

namespace MethodParts

/-- The parts are those of a routine that is shown as a member of `owner`. -/
structure Of (v : View) (owner : TypeRef) (m : Routine) (p : MethodParts) : Prop where
  result : (v.returned m).outcome = .ok p.result
  declaring : (v.type owner).outcome = .ok p.declaring
  name : Name.decode m.name = .ok p.name
  arguments : (v.typeArguments m).outcome = .ok p.arguments
  parameters : (v.parameters m).outcome = .ok p.parameters

/-- The parts of a method without parameters of any kind that returns values of a plain type. -/
theorem Of.of_spelled {v : View} {owner a : TypeRef} {m : Routine} {result declaring : String}
    {d : Name.Decoded} (returned : m.returned = some (.returning a)) (params : m.parameters = [])
    (generic : m.isGeneric = false) (plain : ∃ t, v.catalog.type? a = some t ∧ t.shape = .plain)
    (ha : (v.type a).outcome = .ok result) (ho : (v.type owner).outcome = .ok declaring)
    (hd : Name.decode m.name = .ok d) : Of v owner m ⟨result, declaring, d, "", ""⟩ where
  result := by
    obtain ⟨t, ht, hs⟩ := plain
    simp only [View.returned, returned]
    exact (View.outcome_parameter_returning ht hs).trans ha
  declaring := ho
  name := hd
  arguments := by
    rw [View.typeArguments, generic]
    rfl
  parameters := by
    rw [View.parameters, params]
    rfl

/-- The parts in order, with the name as it is given. -/
def text (p : MethodParts) (name : String) : String :=
  p.result ++ " " ++ p.declaring ++ "." ++ name ++ Style.bracketed p.arguments
    ++ "(" ++ p.parameters ++ ")"

end MethodParts

namespace Style

variable {v : View} {c : Catalog} {ref source : RoutineRef} {m r : Routine} {t : TypeEntry}
  {machine outer owner : TypeRef} {s : String} {f : Frame}

/-! ## Methods -/

theorem outcome_methodBody_eq_ok_iff (ho : m.declaring = some owner)
    (hi : isIndexer v.catalog ref m = .ok false) :
    (methodBody v ref m).outcome = .ok s ↔
      ∃ p, MethodParts.Of v owner m p ∧ s = p.text p.name.member := by
  have hd : m.declaringType = .ok owner := by rw [Routine.declaringType, ho]
  simp only [methodBody, Logged.outcome_bind, Logged.outcome_lift, Logged.outcome_pure, hd, hi,
    ok_bind, bind_eq_ok_iff, Bool.false_eq_true, if_false]
  constructor
  · rintro ⟨result, h₁, declaring, h₂, parameters, h₃, name, h₄, arguments, h₅, h⟩
    exact ⟨⟨result, declaring, name, arguments, parameters⟩, ⟨h₁, h₂, h₄, h₅, h₃⟩,
      (Except.ok.inj h).symm⟩
  · rintro ⟨p, ⟨h₁, h₂, h₄, h₅, h₃⟩, rfl⟩
    exact ⟨_, h₁, _, h₂, _, h₃, _, h₄, _, h₅, rfl⟩

/-! ## Async methods -/

/-- The marked methods are the routines of the listed references that are marked. -/
theorem methodsMarked_eq :
    Frame.methodsMarked c t machine =
      (t.methods.filter fun q => (c.routine? q).any (·.machine == some machine)).filterMap
        c.routine? := by
  rw [Frame.methodsMarked, List.filter_filterMap, List.filterMap_filter]
  refine congrArg (List.filterMap · t.methods) (funext fun q => ?_)
  cases c.routine? q with
  | none => rfl
  | some m => simp [Option.filter]

theorem outcome_asyncMethodOf (ht : c.type? outer = some t) (hm : c.routine? source = some m)
    (marked : t.methods.filter (fun q => (c.routine? q).any (·.machine == some machine)) =
      [source]) :
    (Frame.asyncMethodOf c outer machine).outcome = .ok m := by
  have one : Frame.methodsMarked c t machine = [m] := by
    rw [methodsMarked_eq, marked, List.filterMap_cons_some hm, List.filterMap_nil]
  simp only [Frame.asyncMethodOf, Catalog.type, ht, Logged.outcome_bind, Logged.outcome_lift,
    ok_bind, one, Logged.outcome_pure]

theorem outcome_asyncBody_eq_ok_iff (hr : machineOf r = .ok machine)
    (ha : aroundMachine v.catalog machine = .ok outer)
    (hm : (Frame.asyncMethodOf v.catalog outer machine).outcome = .ok m) :
    (asyncBody v r).outcome = .ok s ↔
      ∃ p, MethodParts.Of v outer m p ∧ s = "async " ++ p.text p.name.logical := by
  simp only [asyncBody, Logged.outcome_bind, Logged.outcome_lift, Logged.outcome_pure, hr, ha, hm,
    ok_bind, bind_eq_ok_iff, MethodParts.text, ← String.append_assoc]
  constructor
  · rintro ⟨result, h₁, declaring, h₂, name, h₃, arguments, h₄, parameters, h₅, h⟩
    exact ⟨⟨result, declaring, name, arguments, parameters⟩, ⟨h₁, h₂, h₃, h₄, h₅⟩,
      (Except.ok.inj h).symm⟩
  · rintro ⟨p, ⟨h₁, h₂, h₃, h₄, h₅⟩, rfl⟩
    exact ⟨_, h₁, _, h₂, _, h₃, _, h₄, _, h₅, rfl⟩

end Style

/-! ## Frames -/

/-- The frame is a step of a state machine: its routine belongs to `machine`, which stands in the
type `outer`, and of the methods listed there exactly one entry, `source`, leads to a routine that
is marked with the machine. That routine is `m`, and it belongs to `outer`. -/
structure Frame.StepOf (c : Catalog) (f : Frame) (machine outer : TypeRef) (source : RoutineRef)
    (m : Routine) : Prop where
  machine_of : ∃ ref r, f.resolve c = .ok (ref, r) ∧ r.declaring.or r.reflected = some machine
  stands_in : ∃ t, c.type? machine = some t ∧ t.enclosing = some outer
  marked : ∃ t, c.type? outer = some t ∧
    t.methods.filter (fun q => (c.routine? q).any (·.machine == some machine)) = [source]
  routine : c.routine? source = some m
  declaring : m.declaring = some outer

namespace Style

variable {v : View} {f : Frame} {ref : RoutineRef} {r : Routine} {s : String}

theorem outcome_render_eq_ok_iff {style : Style} (h : f.resolve v.catalog = .ok (ref, r)) :
    (style.render v f).outcome = .ok s ↔
      ∃ body, (style.body v ref r).outcome = .ok body ∧ s = body ++ v.suffix f := by
  simp only [render, Logged.outcome_bind, Logged.outcome_lift, Logged.outcome_pure, h, ok_bind,
    bind_eq_ok_iff, Except.ok.injEq, eq_comm (b := s)]

/-- A frame that is shown has a routine, and the text of the routine is shown. -/
theorem exists_body_of_render {style : Style} (h : (style.render v f).outcome = .ok s) :
    ∃ ref r body, f.resolve v.catalog = .ok (ref, r) ∧ (style.body v ref r).outcome = .ok body ∧
      s = body ++ v.suffix f := by
  cases hf : f.resolve v.catalog with
  | error e =>
    simp only [render, Logged.outcome_bind, Logged.outcome_lift, hf] at h
    cases h
  | ok p =>
    obtain ⟨body, hb, hs⟩ := (outcome_render_eq_ok_iff hf).1 h
    exact ⟨p.1, p.2, body, rfl, hb, hs⟩

/-- **A step of a state machine is shown as its async method would be.** If the method is no indexer
and its name has no inner part, then the step has a text exactly if a frame of the method at the
same place has one, and the text is that one behind the word `async`. -/
theorem render_asyncMethod_iff {v : View} {f : Frame} {machine outer : TypeRef}
    {source : RoutineRef} {m : Routine} (h : f.StepOf v.catalog machine outer source m)
    (indexer : isIndexer v.catalog source m = .ok false)
    (inner : ∀ d, Name.decode m.name = .ok d → d.nested = none) (s : String) :
    (asyncMethod.render v f).outcome = .ok s ↔
      ∃ s', (method.render v { f with routine := some source }).outcome = .ok s' ∧
        s = "async " ++ s' := by
  obtain ⟨ref, r, hf, hr⟩ := h.machine_of
  obtain ⟨t, ht, he⟩ := h.stands_in
  obtain ⟨u, hu, hone⟩ := h.marked
  have hmachine : machineOf r = .ok machine := by rw [machineOf, hr]
  have haround : aroundMachine v.catalog machine = .ok outer := by
    simp only [aroundMachine, Catalog.type, ht, ok_bind, he]
  have hsource := outcome_asyncMethodOf hu h.routine hone
  have resolved : Frame.resolve { f with routine := some source } v.catalog = .ok (source, m) := by
    simp only [Frame.resolve, Catalog.routine, h.routine]
    rfl
  have member {d : Name.Decoded} (hd : Name.decode m.name = .ok d) : d.member = d.logical := by
    rw [Name.Decoded.member, inner d hd]
  rw [outcome_render_eq_ok_iff hf]
  simp only [outcome_render_eq_ok_iff resolved, body,
    outcome_asyncBody_eq_ok_iff hmachine haround hsource,
    outcome_methodBody_eq_ok_iff h.declaring indexer]
  constructor
  · rintro ⟨_, ⟨p, hp, rfl⟩, rfl⟩
    refine ⟨_, ⟨_, ⟨p, hp, rfl⟩, rfl⟩, ?_⟩
    rw [member hp.name, String.append_assoc]
    rfl
  · rintro ⟨_, ⟨_, ⟨p, hp, rfl⟩, rfl⟩, rfl⟩
    refine ⟨_, ⟨p, hp, rfl⟩, ?_⟩
    rw [member hp.name, String.append_assoc]
    rfl

/-! ## A state machine in its type -/

/-- The parts of a method of a type `App.Loader` that takes and returns nothing. -/
theorem loader_parts {c : Catalog} {m : Routine} {d : Name.Decoded}
    (type : c.type? ⟨0⟩ = some { TypeEntry.ofName (some "App") "Loader" with methods := [⟨1⟩] })
    (void : c.type? ⟨2⟩ = some (.ofName (some "System") "Void"))
    (returned : m.returned = some (.returning ⟨2⟩)) (params : m.parameters = [])
    (generic : m.isGeneric = false) (name : Name.decode m.name = .ok d) :
    MethodParts.Of ⟨c, "System.", false⟩ ⟨0⟩ m ⟨"void", "App.Loader", d, "", ""⟩ := by
  have keyword : (Spelling.ofType c "System." ⟨2⟩).outcome = .ok "void" :=
    (Spelling.ofType_iff_of_plain void rfl).2 (.keyword rfl (by decide))
  have taken : Name.decode "App.Loader" = .ok ⟨"App.Loader", none⟩ := by decide
  have loader : (Spelling.ofType c "System." ⟨0⟩).outcome = .ok "App.Loader" :=
    (Spelling.ofType_iff_of_plain type rfl).2
      (.decoded (t := { TypeEntry.ofName (some "App") "Loader" with methods := [⟨1⟩] })
        (by decide) taken)
  exact .of_spelled returned params generic ⟨_, void, rfl⟩ keyword loader name

/-- An async method that returns nothing. -/
def loadMethod : Routine := { Routine.method "Load" ⟨0⟩ ⟨2⟩ with machine := some ⟨1⟩ }

/-- A type with a method, and the state machine that was made from the method. -/
def loaderCatalog : Catalog where
  types := #[{ TypeEntry.ofName (some "App") "Loader" with methods := [⟨1⟩] },
    { TypeEntry.ofName (some "App") "Loader+<Load>d__0" with enclosing := some ⟨0⟩ },
    .ofName (some "System") "Void"]
  routines := #[.method "MoveNext" ⟨1⟩ ⟨2⟩, loadMethod]

/-- A view of the loader without places in the source. -/
def loaderView : View := ⟨loaderCatalog, "System.", false⟩

theorem loadMethod_parts :
    MethodParts.Of loaderView ⟨0⟩ loadMethod ⟨"void", "App.Loader", ⟨"Load", none⟩, "", ""⟩ :=
  loader_parts rfl rfl rfl rfl rfl (by decide)

theorem render_loaderCatalog :
    (Frame.ofRoutine ⟨0⟩).StepOf loaderCatalog ⟨1⟩ ⟨0⟩ ⟨1⟩ loadMethod ∧
      isIndexer loaderCatalog ⟨1⟩ loadMethod = .ok false ∧
      (∀ d, Name.decode loadMethod.name = .ok d → d.nested = none) ∧
      (asyncMethod.render loaderView (.ofRoutine ⟨0⟩)).outcome =
        .ok "async void App.Loader.Load()" := by
  have step : (Frame.ofRoutine ⟨0⟩).StepOf loaderView.catalog ⟨1⟩ ⟨0⟩ ⟨1⟩ loadMethod :=
    { machine_of := ⟨⟨0⟩, _, rfl, rfl⟩
      stands_in := ⟨_, rfl, rfl⟩
      marked := ⟨_, rfl, by decide⟩
      routine := rfl
      declaring := rfl }
  have indexer : isIndexer loaderView.catalog ⟨1⟩ loadMethod = .ok false := rfl
  have inner : ∀ d, Name.decode loadMethod.name = .ok d → d.nested = none := by
    intro d hd
    rw [loadMethod_parts.name] at hd
    obtain rfl := Except.ok.inj hd
    rfl
  have resolved : (Frame.ofRoutine ⟨1⟩).resolve loaderView.catalog = .ok (⟨1⟩, loadMethod) := rfl
  have shown : (method.render loaderView (.ofRoutine ⟨1⟩)).outcome =
      .ok "void App.Loader.Load()" :=
    (outcome_render_eq_ok_iff resolved).2
      ⟨_, (outcome_methodBody_eq_ok_iff rfl indexer).2 ⟨_, loadMethod_parts, rfl⟩, by decide⟩
  exact ⟨step, indexer, inner,
    (render_asyncMethod_iff step indexer inner _).2 ⟨_, shown, by decide⟩⟩

end Style

end ReadableTrace
