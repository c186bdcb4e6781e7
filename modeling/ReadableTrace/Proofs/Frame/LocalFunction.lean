import ReadableTrace.Frame.Choice
import ReadableTrace.Proofs.Frame.AsyncMethod

/-!
# Async local functions

A local function is shown behind the method that it is in, as `Outer()+Inner`. The async style names
the method that a state machine was made from by the outer part of its name only. So an async
method is shown as the method style shows it if its name has no inner part
(`render_asyncMethod_iff`), and an async local function is shown like the method that it is in:
its own name is left out, and nothing else (`Style.render_asyncMethod_member_iff`).
-/

namespace ReadableTrace

open Log Outcome

variable {v : View} {f : Frame} {m r : Routine} {c : Catalog} {ref : RoutineRef} {s : String}
  {d : Name.Decoded}

/-! ## Names with an inner part -/

theorem Name.Decoded.member_eq_logical_iff : d.member = d.logical ↔ d.nested = none := by
  rw [Name.Decoded.member]
  cases d.nested with
  | none => simp
  | some nested =>
    have longer : d.logical ++ "()+" ++ nested ≠ d.logical := by
      intro h
      have := congrArg String.length h
      simp only [String.length_append] at this
      have three : "()+".length = 3 := rfl
      omega
    simpa using longer

theorem MethodParts.text_injective (p : MethodParts) : Function.Injective p.text := by
  intro a b h
  simpa only [MethodParts.text, String.append_assoc, String.append_right_inj,
    String.append_left_inj] using h

namespace Style

/-- The accessors of an indexer have names without an inner part. -/
theorem isIndexer_of_nested (hd : Name.decode m.name = .ok d) (hn : d.nested ≠ none) :
    isIndexer c ref m = .ok false := by
  have named : ¬ (m.name = "get_Item" ∨ m.name = "set_Item") := by
    rintro (h | h) <;> rw [h] at hd <;> obtain rfl := Except.ok.inj hd <;> exact hn (by decide)
  rw [isIndexer, if_neg named]

/-! ## The method of a step -/

/-- A step that is shown belongs to a state machine, and the method of the machine was found. -/
theorem exists_source_of_asyncBody (h : (asyncBody v r).outcome = .ok s) :
    ∃ machine outer m, machineOf r = .ok machine ∧ aroundMachine v.catalog machine = .ok outer ∧
      (Frame.asyncMethodOf v.catalog outer machine).outcome = .ok m := by
  simp only [asyncBody, Logged.outcome_bind, Logged.outcome_lift, bind_eq_ok_iff] at h
  obtain ⟨machine, hr, outer, ha, m, hm, -⟩ := h
  exact ⟨machine, outer, m, hr, ha, hm⟩

/-- **An async local function is shown without its own name.** Whenever the async style shows a
frame, it found the method of the frame's state machine, and it puts the parts of this method
together with the outer part of its name only. So the method is named as in the method style if and
only if its name has no inner part; and a routine of the type whose name has one is shown by the
method style from the same parts, with the inner part behind the outer one. -/
theorem render_asyncMethod_member_iff (h : (asyncMethod.render v f).outcome = .ok s) :
    ∃ ref r machine outer m p, f.resolve v.catalog = .ok (ref, r) ∧ machineOf r = .ok machine ∧
      aroundMachine v.catalog machine = .ok outer ∧
      (Frame.asyncMethodOf v.catalog outer machine).outcome = .ok m ∧
      MethodParts.Of v outer m p ∧ s = "async " ++ p.text p.name.logical ++ v.suffix f ∧
      (s = "async " ++ p.text p.name.member ++ v.suffix f ↔ p.name.nested = none) ∧
      ∀ nested, p.name.nested = some nested →
        p.name.member = p.name.logical ++ "()+" ++ nested ∧
        ∀ source, v.catalog.routine? source = some m → m.declaring = some outer →
          (method.render v { f with routine := some source }).outcome =
            .ok (p.text p.name.member ++ v.suffix f) := by
  obtain ⟨ref, r, body, hf, hbody, rfl⟩ := exists_body_of_render h
  obtain ⟨machine, outer, m, hr, ha, hm⟩ := exists_source_of_asyncBody hbody
  obtain ⟨p, parts, rfl⟩ := (outcome_asyncBody_eq_ok_iff hr ha hm).1 hbody
  refine ⟨ref, r, machine, outer, m, p, hf, hr, ha, hm, parts, rfl, ?_, fun nested hn => ⟨?_, ?_⟩⟩
  · rw [String.append_left_inj, String.append_right_inj, p.text_injective.eq_iff, eq_comm,
      Name.Decoded.member_eq_logical_iff]
  · rw [Name.Decoded.member, hn]
  · intro source hs ho
    have indexer : isIndexer v.catalog source m = .ok false :=
      isIndexer_of_nested parts.name (by rw [hn]; exact Option.some_ne_none nested)
    exact (outcome_render_eq_ok_iff (Frame.resolve_of_known rfl hs)).2
      ⟨_, (outcome_methodBody_eq_ok_iff ho indexer).2 ⟨p, parts, rfl⟩, rfl⟩

/-! ## A state machine of a local function -/

/-- An async function in the method `Load`. -/
def fetchFunction : Routine :=
  { Routine.method "<Load>g__Fetch|0_0" ⟨0⟩ ⟨2⟩ with machine := some ⟨1⟩ }

/-- A type with the function, and the state machine that was made from the function. -/
def fetchCatalog : Catalog where
  types := #[{ TypeEntry.ofName (some "App") "Loader" with methods := [⟨1⟩] },
    { TypeEntry.ofName (some "App") "Loader+<<Load>g__Fetch|0_0>d" with
      enclosing := some ⟨0⟩, interfaces := [stateMachineInterface] },
    .ofName (some "System") "Void"]
  routines := #[.method "MoveNext" ⟨1⟩ ⟨2⟩, fetchFunction]

/-- A view of the function without places in the source. -/
def fetchView : View := ⟨fetchCatalog, "System.", false⟩

theorem fetchFunction_parts :
    MethodParts.Of fetchView ⟨0⟩ fetchFunction
      ⟨"void", "App.Loader", ⟨"Load", some ⟨"Fetch", some .localFunction⟩⟩, "", ""⟩ :=
  loader_parts rfl rfl rfl rfl rfl (by decide)

theorem outcome_asyncMethodOf_fetchCatalog :
    (Frame.asyncMethodOf fetchCatalog ⟨0⟩ ⟨1⟩).outcome = .ok fetchFunction := by
  have listed : fetchCatalog.routine? ⟨1⟩ = some fetchFunction := rfl
  exact outcome_asyncMethodOf rfl listed (by decide)

/-- The async style leaves out the name of the function. -/
theorem outcome_render_fetchView :
    (asyncMethod.render fetchView (.ofRoutine ⟨0⟩)).outcome = .ok "async void App.Loader.Load()" :=
  (outcome_render_eq_ok_iff rfl).2
    ⟨_, (outcome_asyncBody_eq_ok_iff rfl rfl outcome_asyncMethodOf_fetchCatalog).2
      ⟨_, fetchFunction_parts, rfl⟩, by decide⟩

theorem render_fetchView_member :
    (asyncMethod.render fetchView (.ofRoutine ⟨0⟩)).outcome = .ok "async void App.Loader.Load()" ∧
      ∃ p, MethodParts.Of fetchView ⟨0⟩ fetchFunction p ∧ p.name.nested = some "Fetch" ∧
        "async void App.Loader.Load()" ≠
          "async " ++ p.text p.name.member ++ fetchView.suffix (.ofRoutine ⟨0⟩) := by
  obtain ⟨ref, r, machine, outer, m, p, hf, hr, ha, hm, parts, -, member_iff, -⟩ :=
    render_asyncMethod_member_iff outcome_render_fetchView
  obtain ⟨-, rfl⟩ := Prod.mk.inj (Except.ok.inj hf)
  obtain rfl := Except.ok.inj hr
  obtain rfl := Except.ok.inj ha
  obtain rfl := Except.ok.inj (outcome_asyncMethodOf_fetchCatalog.symm.trans hm)
  have nested : p.name.nested = some "Fetch" := by
    rw [← Except.ok.inj (fetchFunction_parts.name.symm.trans parts.name)]
    rfl
  refine ⟨outcome_render_fetchView, p, parts, nested, fun same => ?_⟩
  exact Option.some_ne_none "Fetch" (nested.symm.trans (member_iff.1 same))

/-- An async local function and the method style on the same routine: the style shows where the
function belongs, and the async style does not. -/
theorem render_fetchView_unlike :
    (asyncMethod.render fetchView (.ofRoutine ⟨0⟩)).outcome = .ok "async void App.Loader.Load()" ∧
      (Frame.asyncMethodOf fetchCatalog ⟨0⟩ ⟨1⟩).outcome = .ok fetchFunction ∧
      (∃ d, Name.decode fetchFunction.name = .ok d ∧
        d.logical = "Load" ∧ d.nested = some "Fetch") ∧
      (method.render fetchView (.ofRoutine ⟨1⟩)).outcome = .ok "void App.Loader.Load()+Fetch()" := by
  have indexer : isIndexer fetchCatalog ⟨1⟩ fetchFunction = .ok false := rfl
  exact ⟨outcome_render_fetchView, outcome_asyncMethodOf_fetchCatalog,
    ⟨_, fetchFunction_parts.name, rfl, rfl⟩,
    (outcome_render_eq_ok_iff rfl).2
      ⟨_, (outcome_methodBody_eq_ok_iff rfl indexer).2 ⟨_, fetchFunction_parts, rfl⟩, by decide⟩⟩

end Style

end ReadableTrace
