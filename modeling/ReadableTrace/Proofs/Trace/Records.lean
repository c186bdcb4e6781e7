import ReadableTrace.Proofs.Frame.Warning
import ReadableTrace.Proofs.Trace.Shown

/-!
# The log of a trace

While a trace is made, every frame is told of once, at the severity `debug`: it is dropped, or it is
rendered in the style that was chosen for it (`Renderer.Noted`). The frames that are told of are
the first ones of the list, up to the one that fails if one does (`reports_texts`); when all are
done, they are counted. Warnings are only given of failures (`warned_render`).
-/

namespace ReadableTrace

open Log Logged Outcome

variable {c : Catalog} {f : Frame} {ref : RoutineRef} {m : Routine}

/-! ## One frame -/

namespace Frame

/-- A frame that is rendered is told of if a style is chosen for it, and not otherwise. -/
theorem reports_render (v : View) (styles : List Style) (h : f.resolve v.catalog = .ok (ref, m)) :
    (∃ style, (choose v.catalog f styles).outcome = .ok style ∧
      (f.render v styles).reports .debug = [.rendering ref style]) ∨
    ∃ e, (f.render v styles).outcome = .error e ∧ (f.render v styles).reports .debug = [] := by
  have quiet := (warnsOnly_choose v.catalog f styles).quiet
  cases hs : (choose v.catalog f styles).outcome with
  | error e =>
    right
    refine ⟨e, ?_, ?_⟩
    · rw [render, outcome_bind, hs]
      rfl
    · rw [render, reports_bind_of_error hs, quiet]
  | ok style =>
    left
    have told : (Logged.note (.rendering ref style) : Logged Fault Unit).reports .debug =
        [.rendering ref style] := reports_note_of_eq rfl
    refine ⟨style, rfl, ?_⟩
    rw [render, reports_bind_of_ok hs, quiet, reports_bind_of_ok (by exact h),
      reports_bind_of_ok (outcome_note _), told, (style.warnsOnly_render v f).quiet]
    rfl

theorem warned_render (f : Frame) (v : View) (styles : List Style) :
    (f.render v styles).Warned := by
  refine (warnsOnly_choose _ f styles).warned.bind fun style => ?_
  refine (Warned.lift (f.unwarned_resolve _)).bind fun (ref, m) => ?_
  exact (Warned.note_debug rfl).bind fun _ => (style.warnsOnly_render v f).warned

end Frame

namespace Renderer

variable {r : Renderer} {frames : List Frame} {position : Nat} {t : Trace}
  {e : Fault} {event : Event}

/-- What is told of a frame at a position: that it is dropped, if it is not to be shown, or else
the style that was chosen for it. -/
inductive Noted (r : Renderer) (c : Catalog) (position : Nat) (f : Frame) : Event → Prop
  | dropped {ref : RoutineRef} {m : Routine} : f.resolve c = .ok (ref, m) → r.shows c f = false →
    Noted r c position f (.hiddenDropped position m.name)
  | rendered {ref : RoutineRef} {m : Routine} {style : Style} : f.resolve c = .ok (ref, m) →
    r.shows c f = true → (f.choose c r.styles).outcome = .ok style →
    Noted r c position f (.rendering ref style)

theorem Noted.ne_framesDone (h : r.Noted c position f event) (shown given : Nat) :
    event ≠ .framesDone shown given := by
  intro he
  subst he
  cases h

/-- What is done with a frame at a position: it is dropped, or it has a text. -/
def handle (r : Renderer) (c : Catalog) (position : Nat) (f : Frame) :
    Logged Fault (Option String) := do
  let (_, routine) ← Logged.lift (f.resolve c)
  if r.shows c f then some <$> f.render (r.view c) r.styles
  else
    Logged.note (.hiddenDropped position routine.name)
    pure none

theorem texts_cons :
    r.texts c position (f :: frames) = (r.handle c position f >>= fun text =>
      (text.toList ++ ·) <$> r.texts c (position + 1) frames) := by
  rw [texts, handle]
  cases hr : f.resolve c with
  | error e => rfl
  | ok p =>
    obtain ⟨ref, m, hf, hm⟩ := Frame.isKnown_iff.2 ⟨p, hr⟩
    obtain rfl := Except.ok.inj (hr.symm.trans (Frame.resolve_of_known hf hm))
    have hs : r.shows c f = !(!r.showHidden && c.isHidden ref) := by
      simp [shows, Frame.isHidden, hf]
    rw [lift_ok, pure_bind, pure_bind, hs]
    dsimp only
    cases !r.showHidden && c.isHidden ref with
    | true => simp
    | false => simp

/-- A frame is told of unless it fails. -/
theorem reports_handle (r : Renderer) (c : Catalog) (position : Nat) (f : Frame) :
    (∃ event, (r.handle c position f).reports .debug = [event] ∧ r.Noted c position f event) ∨
    ∃ e, (r.handle c position f).outcome = .error e ∧
      (r.handle c position f).reports .debug = [] := by
  rw [handle]
  cases hr : f.resolve c with
  | error e => exact .inr ⟨e, rfl, rfl⟩
  | ok p =>
    obtain ⟨ref, m⟩ := p
    rw [lift_ok, pure_bind]
    dsimp only
    split
    case isFalse hs =>
      exact .inl ⟨_, rfl, .dropped hr (by simpa using hs)⟩
    case isTrue hs =>
      rw [reports_map, outcome_map]
      obtain ⟨style, chosen, told⟩ | ⟨e, failed, quiet⟩ :=
        Frame.reports_render (r.view c) r.styles hr
      · exact .inl ⟨_, told, .rendered hr hs chosen⟩
      · exact .inr ⟨e, by rw [failed]; rfl, quiet⟩

theorem warned_handle (r : Renderer) (c : Catalog) (position : Nat) (f : Frame) :
    (r.handle c position f).Warned := by
  refine (Warned.lift (f.unwarned_resolve c)).bind fun (ref, m) => ?_
  dsimp only
  split
  · exact (f.warned_render _ _).map _
  · exact (Warned.note_debug rfl).bind fun _ => rfl

/-! ## A list of frames -/

theorem warned_texts (position : Nat) (frames : List Frame) :
    (r.texts c position frames).Warned := by
  induction frames generalizing position with
  | nil => rfl
  | cons f frames ih =>
    rw [texts_cons]
    exact (warned_handle r c position f).bind fun _ => Warned.map (ih _) _

/-- The records of some frames are those of the first ones, one for each, and of all of them if
none fails. -/
theorem reports_texts (r : Renderer) (c : Catalog) (position : Nat) (frames : List Frame) :
    ∃ done, done <+: frames ∧
      List.Forall₂ (fun p event => r.Noted c p.2 p.1 event) (done.zipIdx position)
        ((r.texts c position frames).reports .debug) ∧
      ∀ shown, (r.texts c position frames).outcome = .ok shown → done = frames := by
  induction frames generalizing position with
  | nil => exact ⟨[], List.prefix_rfl, .nil, fun _ _ => rfl⟩
  | cons f frames ih =>
    rw [texts_cons]
    cases h : (r.handle c position f).outcome with
    | error e =>
      -- the failing frame may have been told of already
      rw [reports_bind_of_error h, outcome_bind, h]
      obtain ⟨event, told, noted⟩ | ⟨_, -, quiet⟩ := reports_handle r c position f
      · rw [told]
        exact ⟨[f], List.prefix_append [f] frames, .cons noted .nil, fun _ h => nomatch h⟩
      · rw [quiet]
        exact ⟨[], List.nil_prefix, .nil, fun _ h => nomatch h⟩
    | ok text =>
      obtain ⟨event, told, noted⟩ | ⟨e, failed, -⟩ := reports_handle r c position f
      · obtain ⟨done, hd, records, whole⟩ := ih (position + 1)
        rw [reports_bind_of_ok h, told, reports_map]
        refine ⟨f :: done, (List.prefix_cons_inj f).2 hd, .cons noted records, ?_⟩
        intro shown hs
        rw [outcome_bind, h, ok_bind, outcome_map, map_eq_ok_iff] at hs
        obtain ⟨others, ho, -⟩ := hs
        rw [whole others ho]
      · cases h.symm.trans failed

/-! ## A trace -/

theorem warned_render (r : Renderer) (c : Catalog) (frames : List Frame) :
    (r.render c frames).Warned :=
  (warned_texts 0 frames).bind fun _ => (Warned.note_debug rfl).bind fun _ => rfl

/-- The records of a trace: one for each frame, and then the count. -/
theorem reports_render_of_ok (h : (r.render c frames).outcome = .ok t) :
    ∃ records, List.Forall₂ (fun p event => r.Noted c p.2 p.1 event) frames.zipIdx records ∧
      (r.render c frames).reports .debug = records ++ [.framesDone t.frames.length frames.length] := by
  rw [render, outcome_bind, bind_eq_ok_iff] at h
  obtain ⟨shown, hs, h⟩ := h
  cases h
  obtain ⟨done, -, records, whole⟩ := reports_texts r c 0 frames
  obtain rfl := whole shown hs
  exact ⟨_, records, reports_bind_of_ok hs _ _⟩

/-- If a frame fails then the frames are not counted. -/
theorem framesDone_not_mem (h : (r.render c frames).outcome = .error e) (shown given : Nat) :
    .framesDone shown given ∉ (r.render c frames).events := by
  intro hm
  have hr : Event.framesDone shown given ∈ (r.render c frames).reports .debug :=
    List.mem_filter.2 ⟨hm, rfl⟩
  cases hs : (r.texts c 0 frames).outcome with
  | ok texts =>
    rw [render, outcome_bind, hs] at h
    cases h
  | error e =>
    rw [render, reports_bind_of_error hs] at hr
    obtain ⟨done, -, records, -⟩ := reports_texts r c 0 frames
    obtain ⟨i, hi, told⟩ := List.getElem_of_mem hr
    exact (records.get (records.length_eq ▸ hi) hi).ne_framesDone shown given told

/-- **The log of a trace tells the truth.** A trace is made without warnings, and its records are
one for each frame, in the order of the frames, and then one with the numbers of the frames that
are shown and of those that were given. A failure to make a trace comes with one warning if no style
claims a frame or if the catalog contradicts itself, and with none otherwise, and then the frames
are not counted. -/
theorem render_logged (r : Renderer) (c : Catalog) (frames : List Frame) :
    (∀ t, (r.render c frames).outcome = .ok t →
      (r.render c frames).reports .warn = [] ∧
      ∃ records, List.Forall₂ (fun p event => r.Noted c p.2 p.1 event) frames.zipIdx records ∧
        (r.render c frames).reports .debug =
          records ++ [.framesDone t.frames.length frames.length]) ∧
    ∀ e, (r.render c frames).outcome = .error e →
      (e.kind = .inconsistent ∨ e.kind = .unsupported →
        ((r.render c frames).reports .warn).length = 1) ∧
      (e.kind = .absent ∨ e.kind = .invalid → (r.render c frames).reports .warn = []) ∧
      ∀ shown given, .framesDone shown given ∉ (r.render c frames).events := by
  have warned := warned_render r c frames
  refine ⟨fun t ht => ⟨warned.of_ok ht, reports_render_of_ok ht⟩, fun e he => ?_⟩
  rw [Warned, he, Outcome.warnings, Fault.warnings] at warned
  refine ⟨?_, ?_, framesDone_not_mem he⟩
  · rintro (hk | hk)
    · rwa [hk] at warned
    · rwa [hk] at warned
  · rintro (hk | hk)
    · rw [hk] at warned
      exact List.length_eq_zero_iff.1 warned
    · rw [hk] at warned
      exact List.length_eq_zero_iff.1 warned

/-- The first frame is hidden; without styles, no frame is claimed. -/
theorem render_logged_guardedCatalog :
    (∃ t, (standard.render guardedCatalog [.ofRoutine ⟨1⟩, .ofRoutine ⟨0⟩]).outcome = .ok t ∧
      (standard.render guardedCatalog [.ofRoutine ⟨1⟩, .ofRoutine ⟨0⟩]).reports .warn = [] ∧
      (standard.render guardedCatalog [.ofRoutine ⟨1⟩, .ofRoutine ⟨0⟩]).reports .debug =
        [.hiddenDropped 0 ".ctor", .rendering ⟨0⟩ .constructor, .framesDone t.frames.length 2]) ∧
    ({ standard with styles := [] }.render guardedCatalog [.ofRoutine ⟨0⟩]).outcome =
      .error (.unclaimed ".ctor") ∧
    (({ standard with styles := [] }.render guardedCatalog [.ofRoutine ⟨0⟩]).reports .warn).length =
      1 := by
  constructor
  · obtain ⟨truth, -⟩ := render_logged standard guardedCatalog [.ofRoutine ⟨1⟩, .ofRoutine ⟨0⟩]
    have shown : standard.shows guardedCatalog (.ofRoutine ⟨0⟩) = true := by decide
    have hidden : standard.shows guardedCatalog (.ofRoutine ⟨1⟩) = false := by decide
    have accepted : ∀ f ∈ [Frame.ofRoutine ⟨1⟩, .ofRoutine ⟨0⟩],
        standard.Accepts guardedCatalog f := by
      simp only [List.forall_mem_cons, List.not_mem_nil, false_implies, implies_true, and_true]
      exact ⟨⟨⟨⟨1⟩, _, rfl, rfl⟩, fun h => nomatch hidden.symm.trans h⟩,
        ⟨⟨0⟩, _, rfl, rfl⟩, fun _ => ⟨_, textOf_guardedCatalog⟩⟩
    obtain ⟨t, ht⟩ := exists_render_ok_iff.2 accepted
    obtain ⟨quiet, records, noted, told⟩ := truth t ht
    refine ⟨t, ht, quiet, ?_⟩
    obtain ⟨first, _, hfirst, hrest, rfl⟩ := List.forall₂_cons_left_iff.1 noted
    obtain ⟨second, _, hsecond, hnil, rfl⟩ := List.forall₂_cons_left_iff.1 hrest
    obtain rfl := List.forall₂_nil_left_iff.1 hnil
    rw [told]
    cases hfirst with
    | rendered _ hs _ => cases hidden.symm.trans hs
    | dropped resolved _ =>
      cases resolved
      cases hsecond with
      | dropped _ hs => cases shown.symm.trans hs
      | rendered resolved _ chosen =>
        cases resolved
        cases chosen
        rfl
  · obtain ⟨-, failure⟩ := render_logged { standard with styles := [] } guardedCatalog
      [.ofRoutine ⟨0⟩]
    have fails : ({ standard with styles := [] }.render guardedCatalog [.ofRoutine ⟨0⟩]).outcome =
        .error (.unclaimed ".ctor") := rfl
    obtain ⟨one, -⟩ := failure _ fails
    exact ⟨fails, one (.inr rfl)⟩

end Renderer

end ReadableTrace
