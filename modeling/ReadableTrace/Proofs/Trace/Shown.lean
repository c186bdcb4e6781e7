import ReadableTrace.Proofs.Frame.Renaming
import ReadableTrace.Proofs.Spelling.Composition
import ReadableTrace.Trace
import Mathlib.Data.List.ReduceOption

/-!
# Which frames a trace shows

A renderer takes a list of frames one by one. `Renderer.entry` says what becomes of a single frame:
it fails, it is left out, or it has a text. A whole list is this entry at each frame, with those
left out taken away (`outcome_render`), so that what becomes of a frame does not depend on the
others.

* `render_eq_ok_iff` and `render_eq_error_iff` say when a trace is made and of which texts, and
  which frame is to blame if it is not.
* `outcome_render_of_thinned`: hidden frames may be left out beforehand.
* `outcome_render_of_unmarked`: if hidden frames are shown, then the marks have no influence.
-/

namespace ReadableTrace

open Log Outcome

namespace Frame

/-- The frame names a routine of the catalog. -/
def IsKnown (c : Catalog) (f : Frame) : Prop :=
  ∃ ref m, f.routine = some ref ∧ c.routine? ref = some m

/-- The frame names a routine of the catalog that is marked as not to be shown. -/
def isHidden (c : Catalog) (f : Frame) : Bool := f.routine.any c.isHidden

variable {c : Catalog} {f : Frame}

theorem isKnown_iff : f.IsKnown c ↔ ∃ p, f.resolve c = .ok p := by
  constructor
  · rintro ⟨ref, m, hf, hm⟩
    exact ⟨(ref, m), resolve_of_known hf hm⟩
  · rintro ⟨p, hp⟩
    cases hf : f.routine with
    | none =>
      rw [Frame.resolve, hf] at hp
      cases hp
    | some ref =>
      cases hm : c.routine? ref with
      | some m => exact ⟨ref, m, hf, hm⟩
      | none =>
        simp only [Frame.resolve, Catalog.routine, hf, hm] at hp
        cases hp

theorem isKnown_of_isHidden (h : f.isHidden c = true) : f.IsKnown c := by
  obtain ⟨ref, hr, hh⟩ := (Option.any_eq_true _ _).1 h
  obtain ⟨m, hm, -⟩ := (Option.any_eq_true _ _).1 hh
  exact ⟨ref, m, hr, hm⟩

end Frame

/-- The first list is the second one with some hidden frames left out. -/
inductive Thinned (c : Catalog) : List Frame → List Frame → Prop
  | nil : Thinned c [] []
  | keep {f fewer frames} : Thinned c fewer frames → Thinned c (f :: fewer) (f :: frames)
  | drop {f fewer frames} : f.isHidden c = true → Thinned c fewer frames →
    Thinned c fewer (f :: frames)

namespace Renderer

/-- Whether a frame is shown, if it can be. -/
def shows (r : Renderer) (c : Catalog) (f : Frame) : Bool := r.showHidden || !f.isHidden c

/-- The outcome for the text of a frame. -/
def textOf (r : Renderer) (c : Catalog) (f : Frame) : Except Fault String :=
  (f.render (r.view c) r.styles).outcome

/-- What becomes of a frame: a text, or nothing if it is not shown. -/
def entry (r : Renderer) (c : Catalog) (f : Frame) : Except Fault (Option String) := do
  let _ ← f.resolve c
  if r.shows c f then some <$> r.textOf c f else pure none

/-- The frame does not stand in the way of a trace: it names a routine of the catalog, and if it is
shown then it has a text. -/
def Accepts (r : Renderer) (c : Catalog) (f : Frame) : Prop :=
  f.IsKnown c ∧ (r.shows c f = true → ∃ s, r.textOf c f = .ok s)

variable {r : Renderer} {c c' : Catalog} {f : Frame} {frames fewer : List Frame} {t : Trace}
  {e : Fault}

/-! ## One frame -/

theorem entry_of_isKnown (h : f.IsKnown c) :
    r.entry c f = if r.shows c f then some <$> r.textOf c f else .ok none := by
  obtain ⟨p, hp⟩ := Frame.isKnown_iff.1 h
  rw [entry, hp]
  rfl

theorem entry_of_resolve (h : f.resolve c = .error e) : r.entry c f = .error e := by
  rw [entry, h]
  rfl

theorem entry_eq_ok_iff {o : Option String} :
    r.entry c f = .ok o ↔ f.IsKnown c ∧
      if r.shows c f then ∃ s, r.textOf c f = .ok s ∧ some s = o else o = none := by
  by_cases h : f.IsKnown c
  · rw [entry_of_isKnown h]
    split
    · simp [h]
    · simp [h, eq_comm]
  · cases hr : f.resolve c with
    | ok p => exact absurd (Frame.isKnown_iff.2 ⟨p, hr⟩) h
    | error e => simp [h, entry_of_resolve hr]

theorem entry_eq_error_iff :
    r.entry c f = .error e ↔ f.resolve c = .error e ∨
      f.IsKnown c ∧ r.shows c f = true ∧ r.textOf c f = .error e := by
  cases hr : f.resolve c with
  | ok p =>
    have h := Frame.isKnown_iff.2 ⟨p, hr⟩
    rw [entry_of_isKnown h]
    split <;> simp [*]
  | error e' =>
    have h : ¬ f.IsKnown c := by simp [Frame.isKnown_iff, hr]
    simp [h, entry_of_resolve hr]

theorem exists_entry_ok_iff : (∃ o, r.entry c f = .ok o) ↔ r.Accepts c f := by
  simp only [entry_eq_ok_iff, Accepts, exists_and_left]
  split <;> simp [*]

/-! ## A list of frames -/

/-- The position of a frame is only reported. -/
theorem outcome_texts (position : Nat) :
    (r.texts c position frames).outcome = List.reduceOption <$> frames.mapM (r.entry c) := by
  induction frames generalizing position with
  | nil => rfl
  | cons f frames ih =>
    rw [texts, Logged.outcome_bind, Logged.outcome_lift, List.mapM_cons]
    by_cases h : f.IsKnown c
    · obtain ⟨ref, m, hf, hm⟩ := h
      have hs : r.shows c f = !(!r.showHidden && c.isHidden ref) := by
        simp [shows, Frame.isHidden, hf]
      rw [Frame.resolve_of_known hf hm, entry_of_isKnown ⟨ref, m, hf, hm⟩, hs, ok_bind]
      dsimp only
      cases !r.showHidden && c.isHidden ref with
      | true => simp [ih, List.reduceOption_cons_of_none]
      | false => simp [ih, textOf, List.reduceOption_cons_of_some]
    · cases hr : f.resolve c with
      | ok p => exact absurd (Frame.isKnown_iff.2 ⟨p, hr⟩) h
      | error e => rw [entry_of_resolve hr]; rfl

/-- A trace is what becomes of each frame, without the frames that are not shown. -/
theorem outcome_render :
    (r.render c frames).outcome =
      (fun entries => ⟨entries.reduceOption, r.frameLead, r.separator⟩) <$>
        frames.mapM (r.entry c) := by
  simp only [render, Logged.outcome_bind, Logged.outcome_note, Logged.outcome_pure, outcome_texts,
    bind_map_left, ok_bind]
  rfl

/-- The texts of the frames that have one, where each frame has its entry. -/
theorem forall₂_entry_iff {texts : List String} :
    (∃ entries, List.Forall₂ (fun f o => r.entry c f = .ok o) frames entries ∧
        entries.reduceOption = texts) ↔
      (∀ f ∈ frames, f.IsKnown c) ∧
        List.Forall₂ (fun f s => r.textOf c f = .ok s) (frames.filter (r.shows c)) texts := by
  induction frames generalizing texts with
  | nil => simp [eq_comm]
  | cons f frames ih =>
    rw [List.forall_mem_cons, List.filter_cons]
    simp only [List.forall₂_cons_left_iff, entry_eq_ok_iff (f := f)]
    by_cases hs : r.shows c f = true
    · simp only [hs, if_true, List.forall₂_cons_left_iff]
      constructor
      · rintro ⟨_, ⟨_, entries, ⟨hk, s, hs, rfl⟩, he, rfl⟩, rfl⟩
        obtain ⟨hk', ht⟩ := ih.1 ⟨entries, he, rfl⟩
        exact ⟨⟨hk, hk'⟩, s, _, hs, ht, List.reduceOption_cons_of_some s entries⟩
      · rintro ⟨⟨hk, hk'⟩, s, texts, hs, ht, rfl⟩
        obtain ⟨entries, he, rfl⟩ := ih.2 ⟨hk', ht⟩
        exact ⟨_, ⟨_, entries, ⟨hk, s, hs, rfl⟩, he, rfl⟩,
          List.reduceOption_cons_of_some s entries⟩
    · simp only [hs, if_false, Bool.false_eq_true]
      constructor
      · rintro ⟨_, ⟨_, entries, ⟨hk, rfl⟩, he, rfl⟩, rfl⟩
        obtain ⟨hk', ht⟩ := ih.1 ⟨entries, he, rfl⟩
        exact ⟨⟨hk, hk'⟩, ht⟩
      · rintro ⟨⟨hk, hk'⟩, ht⟩
        obtain ⟨entries, he, rfl⟩ := ih.2 ⟨hk', ht⟩
        exact ⟨_, ⟨_, entries, ⟨hk, rfl⟩, he, rfl⟩, List.reduceOption_cons_of_none entries⟩

theorem render_eq_ok_iff :
    (r.render c frames).outcome = .ok t ↔
      (∀ f ∈ frames, f.IsKnown c) ∧
        List.Forall₂ (fun f s => r.textOf c f = .ok s) (frames.filter (r.shows c)) t.frames ∧
          t.frameLead = r.frameLead ∧ t.separator = r.separator := by
  rw [outcome_render, map_eq_ok_iff, ← and_assoc, ← forall₂_entry_iff]
  simp only [mapM_eq_ok_iff]
  constructor
  · rintro ⟨entries, he, rfl⟩
    exact ⟨⟨entries, he, rfl⟩, rfl, rfl⟩
  · rintro ⟨⟨entries, he, ht⟩, hl, hs⟩
    exact ⟨entries, he, by rw [ht, ← hl, ← hs]⟩

theorem exists_render_ok_iff :
    (∃ t, (r.render c frames).outcome = .ok t) ↔ ∀ f ∈ frames, r.Accepts c f := by
  simp only [outcome_render, map_eq_ok_iff, ← exists_entry_ok_iff]
  rw [← exists_mapM_ok_iff]
  constructor
  · rintro ⟨_, entries, he, -⟩
    exact ⟨entries, he⟩
  · rintro ⟨entries, he⟩
    exact ⟨_, entries, he, rfl⟩

theorem render_eq_error_iff :
    (r.render c frames).outcome = .error e ↔
      ∃ front f back, frames = front ++ f :: back ∧ (∀ g ∈ front, r.Accepts c g) ∧
        (f.resolve c = .error e ∨
          f.IsKnown c ∧ r.shows c f = true ∧ r.textOf c f = .error e) := by
  simp only [outcome_render, map_eq_error_iff, mapM_eq_error_iff, exists_entry_ok_iff,
    entry_eq_error_iff]

/-- A trace of two lists of frames is the traces of both, one behind the other. -/
theorem exists_of_render_append {xs ys : List Frame} (h : (r.render c (xs ++ ys)).outcome = .ok t) :
    ∃ front back, (r.render c xs).outcome = .ok front ∧ (r.render c ys).outcome = .ok back ∧
      t.frames = front.frames ++ back.frames := by
  simp only [outcome_render, List.mapM_append, map_eq_ok_iff, bind_eq_ok_iff,
    pure_eq_ok_iff] at h
  obtain ⟨_, ⟨front, hf, back, hb, rfl⟩, rfl⟩ := h
  refine ⟨_, _, outcome_render.trans (map_eq_ok_iff.2 ⟨front, hf, rfl⟩),
    outcome_render.trans (map_eq_ok_iff.2 ⟨back, hb, rfl⟩), ?_⟩
  exact List.reduceOption_append front back

/-- Hidden frames may be left out beforehand, unless they are shown. -/
theorem outcome_render_of_thinned (h : r.showHidden = false) (ht : Thinned c fewer frames) :
    (r.render c fewer).outcome = (r.render c frames).outcome := by
  induction ht with
  | nil => rfl
  | keep _ ih =>
    simp only [outcome_render, List.mapM_cons, map_bind, map_pure] at ih ⊢
    refine bind_congr fun o => bind_congr_of_map ih fun entries entries' he => ?_
    have he : entries.reduceOption = entries'.reduceOption := congrArg Trace.frames he
    cases o with
    | none => rw [List.reduceOption_cons_of_none, List.reduceOption_cons_of_none, he]
    | some s => rw [List.reduceOption_cons_of_some, List.reduceOption_cons_of_some, he]
  | @drop f fewer frames hf _ ih =>
    have hs : r.shows c f = false := by simp [shows, h, hf]
    rw [ih, outcome_render, outcome_render, List.mapM_cons,
      entry_of_isKnown (Frame.isKnown_of_isHidden hf), hs]
    simp [List.reduceOption_cons_of_none]

/-- A catalog with other references shows the same texts, if it shows the same frames. -/
theorem outcome_render_rename {ρ : Renaming} (h : Renames ρ c c')
    (hs : ∀ f ∈ frames, r.shows c' (f.rename ρ) = r.shows c f) :
    (r.render c' (frames.map (·.rename ρ))).outcome =
      (r.render c frames).outcome.mapError (·.rename ρ) := by
  have alike : ∀ f ∈ frames, r.entry c' (f.rename ρ) = (r.entry c f).mapError (·.rename ρ) := by
    intro f hf
    have ht : r.textOf c' (f.rename ρ) = (r.textOf c f).mapError (·.rename ρ) :=
      Frame.outcome_render_rename (v := r.view c) h f r.styles
    refine resolve_bind_rename h f fun _ _ _ _ => ?_
    rw [hs f hf, ht]
    split
    · exact mapError_map.symm
    · rfl
  rw [outcome_render, outcome_render, mapError_map, mapError_mapM, List.mapM_map]
  exact congrArg _ (mapM_congr alike)

/-- If hidden frames are shown, then the marks have no influence. -/
theorem outcome_render_of_unmarked (h : r.showHidden = true) (ht : c'.types = c.types)
    (hm : c'.routines.map (·.unmarked) = c.routines.map (·.unmarked)) :
    (r.render c' frames).outcome = (r.render c frames).outcome := by
  have hs (c f) : r.shows c f = true := by rw [shows, h, Bool.true_or]
  simpa using outcome_render_rename (.of_unmarked ht hm)
    fun f (_ : f ∈ frames) => (hs c' _).trans (hs c f).symm

/-- **A trace shows the visible frames in order, all of them or none.** It is made exactly if every
frame names a routine of the catalog and every frame that is to be shown has a text, and it holds
these texts in the order of the frames; otherwise the first frame that fails is to blame. So traces
of two lists can be put one behind the other, hidden frames can be left out beforehand if they are
not shown, and if they are shown then the marks have no influence. -/
theorem render_shown_in_order (r : Renderer) (c : Catalog) :
    (∀ frames, (∃ t, (r.render c frames).outcome = .ok t) ↔ ∀ f ∈ frames, r.Accepts c f) ∧
    (∀ frames t, (r.render c frames).outcome = .ok t →
      List.Forall₂ (fun f s => r.textOf c f = .ok s) (frames.filter (r.shows c)) t.frames ∧
        t.frameLead = r.frameLead ∧ t.separator = r.separator) ∧
    (∀ frames e, (r.render c frames).outcome = .error e ↔
      ∃ front f back, frames = front ++ f :: back ∧ (∀ g ∈ front, r.Accepts c g) ∧
        (f.resolve c = .error e ∨
          f.IsKnown c ∧ r.shows c f = true ∧ r.textOf c f = .error e)) ∧
    (∀ xs ys t, (r.render c (xs ++ ys)).outcome = .ok t →
      ∃ front back, (r.render c xs).outcome = .ok front ∧ (r.render c ys).outcome = .ok back ∧
        t.frames = front.frames ++ back.frames) ∧
    (r.showHidden = false → ∀ frames fewer, Thinned c fewer frames →
      (r.render c fewer).outcome = (r.render c frames).outcome) ∧
    (r.showHidden = true → ∀ c' frames, c'.types = c.types →
      c'.routines.map (·.unmarked) = c.routines.map (·.unmarked) →
      (r.render c' frames).outcome = (r.render c frames).outcome) := by
  refine ⟨fun _ => exists_render_ok_iff, fun _ _ h => (render_eq_ok_iff.1 h).2,
    fun _ _ => render_eq_error_iff, fun _ _ _ => exists_of_render_append, ?_, ?_⟩
  · intro h frames fewer ht
    exact outcome_render_of_thinned h ht
  · intro h c' frames ht hm
    exact outcome_render_of_unmarked h ht hm

/-! ## A hidden frame without a text -/

/-- A type with a constructor, and a hidden constructor that belongs to no type. -/
def guardedCatalog : Catalog where
  types := #[.ofName (some "App") "Worker"]
  routines := #[.constructor ⟨0⟩ false,
    { Routine.constructor ⟨0⟩ false with declaring := none, isHidden := true }]

theorem textOf_guardedCatalog :
    standard.textOf guardedCatalog (.ofRoutine ⟨0⟩) = .ok "new App.Worker() in :line 0" := by
  have taken : Name.decode "App.Worker" = .ok ⟨"App.Worker", none⟩ := by decide
  have spelled : ((standard.view guardedCatalog).type ⟨0⟩).outcome = .ok "App.Worker" :=
    (Spelling.ofType_iff_of_plain rfl rfl).2
      (.decoded (t := .ofName (some "App") "Worker") (by decide) taken)
  have chosen : (Frame.choose guardedCatalog (.ofRoutine ⟨0⟩) Style.all).outcome =
      .ok .constructor := rfl
  have owner : guardedCatalog.type ⟨0⟩ = .ok (.ofName (some "App") "Worker") := rfl
  have body : (Style.constructorBody (standard.view guardedCatalog)
      (.constructor ⟨0⟩ false)).outcome = .ok "new App.Worker()" := by
    simp only [Style.constructorBody, Logged.outcome_bind, Logged.outcome_lift,
      Routine.declaringType, Routine.constructor, ok_bind, spelled]
    decide
  have known : (Frame.ofRoutine ⟨0⟩).resolve guardedCatalog =
      .ok (⟨0⟩, .constructor ⟨0⟩ false) := rfl
  change (Frame.render (.ofRoutine ⟨0⟩) (standard.view guardedCatalog) Style.all).outcome = _
  simp only [Frame.render, Style.render, Style.body, Logged.outcome_bind, Logged.outcome_lift, view,
    chosen, known, ok_bind, Logged.outcome_note]
  rw [← view, body]
  decide +kernel

theorem render_guardedCatalog :
    (standard.showHidden = false ∧
      Thinned guardedCatalog [.ofRoutine ⟨0⟩] [.ofRoutine ⟨1⟩, .ofRoutine ⟨0⟩]) ∧
      ∃ t, (standard.render guardedCatalog [.ofRoutine ⟨1⟩, .ofRoutine ⟨0⟩]).outcome = .ok t ∧
        t.frames = ["new App.Worker() in :line 0"] := by
  have ht : Thinned guardedCatalog [.ofRoutine ⟨0⟩] [.ofRoutine ⟨1⟩, .ofRoutine ⟨0⟩] :=
    .drop (by decide) (.keep .nil)
  obtain ⟨made, texts, -, -, thin, -⟩ := render_shown_in_order standard guardedCatalog
  have accepted : standard.Accepts guardedCatalog (.ofRoutine ⟨0⟩) :=
    ⟨⟨⟨0⟩, _, rfl, rfl⟩, fun _ => ⟨_, textOf_guardedCatalog⟩⟩
  obtain ⟨t, hr⟩ := (made [.ofRoutine ⟨0⟩]).2 (by simpa using accepted)
  have hs : standard.shows guardedCatalog (.ofRoutine ⟨0⟩) = true := by decide
  obtain ⟨ht', -, -⟩ := texts _ t hr
  refine ⟨⟨rfl, ht⟩, t, (thin rfl _ _ ht).symm.trans hr, ?_⟩
  rw [List.filter_cons_of_pos hs, List.filter_nil, List.forall₂_cons_left_iff] at ht'
  obtain ⟨s, ss, hs, hss, h⟩ := ht'
  rw [h, List.forall₂_nil_left_iff.1 hss, Except.ok.inj (hs.symm.trans textOf_guardedCatalog)]

end Renderer

end ReadableTrace
