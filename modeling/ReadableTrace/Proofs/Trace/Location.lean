import ReadableTrace.Proofs.Trace.Shown

/-!
# Places in the source

The place of a frame is put behind the text that the frame has without it, in every style, whether
the style is asked for or chosen (`Style.outcome_render_located`, `Frame.outcome_render_located`),
and it has no other influence. Without places a frame is shown by its routine only
(`Style.render_placed`, `Frame.render_placed`). So a trace shows the same frames with and without
places, and fails alike (`Renderer.render_located`).
-/

namespace ReadableTrace

open Log Outcome

/-- The same view, with or without places. -/
def View.located (v : View) (b : Bool) : View := { v with showLocation := b }

/-- The same renderer, with or without places. -/
def Renderer.located (r : Renderer) (b : Bool) : Renderer := { r with showLocation := b }

namespace Frame

/-- A frame of the same routine at another place. -/
def placed (f : Frame) (file : Option String) (line : Option UInt32) : Frame :=
  ⟨f.routine, file, line⟩

/-- A text with the place of a frame behind it. -/
def behind (f : Frame) (s : String) : String :=
  s ++ " in " ++ f.file.getD "" ++ ":line " ++ Decimal.text (f.line.getD 0).toNat

theorem behind_injective (f : Frame) : Function.Injective f.behind := by
  intro s s' h
  simpa only [behind, String.append_left_inj] using h

end Frame

/-- What is computed for each member of a list, and then changed by a function of the member. -/
theorem forall₂_zipWith {α β γ : Type} {P : α → β → Prop} {Q : α → γ → Prop} {g : α → β → γ}
    {as : List α} {bs : List β} (h : List.Forall₂ P as bs) (hg : ∀ a b, P a b → Q a (g a b)) :
    List.Forall₂ Q as (List.zipWith g as bs) := by
  induction h with
  | nil => exact .nil
  | cons h _ ih => exact .cons (hg _ _ h) ih

variable {v : View} {f : Frame} {ref : RoutineRef} {m : Routine} {c : Catalog} {r : Renderer}
  {frames : List Frame} {t : Trace} {e : Fault}

theorem suffix_located_false : (v.located false).suffix f = "" := rfl

theorem append_suffix_located_true {s : String} : s ++ (v.located true).suffix f = f.behind s := by
  have lead : s ++ " " ++ "in " = s ++ " in " := by
    rw [String.append_assoc]
    rfl
  simp only [View.suffix, View.located, Frame.location, Frame.behind, if_true,
    ← String.append_assoc, lead]

namespace Style

/-- The text of a routine has no place in it. -/
theorem body_located (s : Style) (b : Bool) : s.body (v.located b) ref m = s.body v ref m := by
  cases s <;> rfl

theorem outcome_render (s : Style) :
    (s.render v f).outcome = (do
      let p ← f.resolve v.catalog
      (· ++ v.suffix f) <$> (s.body v p.1 p.2).outcome) := by
  simp only [render, Logged.outcome_bind, Logged.outcome_lift, Logged.outcome_pure]
  rfl

theorem outcome_render_located (s : Style) :
    (s.render (v.located true) f).outcome =
      f.behind <$> (s.render (v.located false) f).outcome := by
  simp only [outcome_render, body_located, map_bind, Functor.map_map, append_suffix_located_true,
    suffix_located_false, String.append_empty]
  rfl

/-- Without places, a frame is shown by its routine only. -/
theorem render_placed (s : Style) (file : Option String) (line : Option UInt32) :
    s.render (v.located false) (f.placed file line) = s.render (v.located false) f :=
  rfl

end Style

namespace Frame

theorem claims_placed (s : Style) (file : Option String) (line : Option UInt32) :
    s.claims c (f.placed file line) = s.claims c f :=
  rfl

theorem choose_placed (styles : List Style) (file : Option String) (line : Option UInt32) :
    choose c (f.placed file line) styles = choose c f styles := by
  induction styles with
  | nil => rfl
  | cons s styles ih => rw [choose, choose, claims_placed, ih]

theorem outcome_render_located (styles : List Style) :
    (f.render (v.located true) styles).outcome =
      f.behind <$> (f.render (v.located false) styles).outcome := by
  simp only [render, Logged.outcome_bind, Logged.outcome_lift, Logged.outcome_note, ok_bind,
    Style.outcome_render_located, map_bind]
  rfl

theorem render_placed (styles : List Style) (file : Option String) (line : Option UInt32) :
    (f.placed file line).render (v.located false) styles = f.render (v.located false) styles := by
  simp only [render, choose_placed, Style.render_placed]
  rfl

end Frame

namespace Renderer

theorem textOf_located : (r.located true).textOf c f = f.behind <$> (r.located false).textOf c f :=
  Frame.outcome_render_located (v := r.view c) r.styles

theorem accepts_located : (r.located true).Accepts c f ↔ (r.located false).Accepts c f := by
  have text : (∃ s, (r.located true).textOf c f = .ok s) ↔
      ∃ s, (r.located false).textOf c f = .ok s := by
    simp only [textOf_located, map_eq_ok_iff]
    constructor
    · rintro ⟨_, s, hs, -⟩
      exact ⟨s, hs⟩
    · rintro ⟨s, hs⟩
      exact ⟨_, s, hs, rfl⟩
  rw [Accepts, Accepts, text]
  rfl

/-- With places and without, a list of frames fails alike. -/
theorem render_located_error_iff :
    ((r.located true).render c frames).outcome = .error e ↔
      ((r.located false).render c frames).outcome = .error e := by
  simp only [render_eq_error_iff, accepts_located, textOf_located, map_eq_error_iff]
  rfl

/-- With places, the texts without them have the places of the frames behind them. -/
theorem render_located_of_ok (h : ((r.located false).render c frames).outcome = .ok t) :
    ((r.located true).render c frames).outcome =
      .ok { t with frames := List.zipWith Frame.behind (frames.filter (r.shows c)) t.frames } := by
  obtain ⟨known, texts, lead, separator⟩ := render_eq_ok_iff.1 h
  refine render_eq_ok_iff.2 ⟨known, ?_, lead, separator⟩
  refine forall₂_zipWith texts fun f s hs => ?_
  rw [textOf_located, hs]
  rfl

/-- **Places only stand behind texts.** Without places, the text of a frame depends on its routine
only, both in a given style and in the first style that claims the frame. With places, the same
frames fail, in the same way, and the others have their places behind the same texts. So it is with
the frames of a trace: each has the place of its own frame behind it. -/
theorem render_located :
    (∀ (v : View) (f : Frame) (s : Style),
      (s.render (v.located true) f).outcome =
        f.behind <$> (s.render (v.located false) f).outcome ∧
      ∀ file line, s.render (v.located false) (f.placed file line) =
        s.render (v.located false) f) ∧
    (∀ (v : View) (f : Frame) (styles : List Style),
      (f.render (v.located true) styles).outcome =
        f.behind <$> (f.render (v.located false) styles).outcome ∧
      ∀ file line, (f.placed file line).render (v.located false) styles =
        f.render (v.located false) styles) ∧
    ∀ (r : Renderer) (c : Catalog) (frames : List Frame),
      (∀ e, ((r.located true).render c frames).outcome = .error e ↔
        ((r.located false).render c frames).outcome = .error e) ∧
      ∀ t, ((r.located false).render c frames).outcome = .ok t →
        t.frames.length = (frames.filter (r.shows c)).length ∧
        ((r.located true).render c frames).outcome =
          .ok { t with frames := List.zipWith Frame.behind (frames.filter (r.shows c)) t.frames } := by
  refine ⟨fun v f s => ⟨?_, ?_⟩, fun v f styles => ⟨?_, ?_⟩, fun r c frames => ⟨?_, ?_⟩⟩
  · exact Style.outcome_render_located s
  · exact Style.render_placed s
  · exact Frame.outcome_render_located styles
  · exact Frame.render_placed styles
  · intro e
    exact render_located_error_iff
  · intro t h
    obtain ⟨-, texts, -⟩ := render_eq_ok_iff.1 h
    exact ⟨texts.length_eq.symm, render_located_of_ok h⟩

/-- Two frames of the same constructor, without and with a place. -/
def workerFrames : List Frame :=
  [.ofRoutine ⟨0⟩, (Frame.ofRoutine ⟨0⟩).placed (some "Worker.cs") (some 7)]

theorem render_workerFrames :
    ((standard.located false).render guardedCatalog workerFrames).outcome =
      .ok ⟨["new App.Worker()", "new App.Worker()"], standard.frameLead, standard.separator⟩ ∧
    ((standard.located true).render guardedCatalog workerFrames).outcome =
      .ok ⟨["new App.Worker() in :line 0", "new App.Worker() in Worker.cs:line 7"],
        standard.frameLead, standard.separator⟩ := by
  obtain ⟨-, chosen, traces⟩ := render_located
  obtain ⟨located, placed⟩ :=
    chosen (standard.view guardedCatalog) (.ofRoutine ⟨0⟩) Style.all
  have plain : (standard.located false).textOf guardedCatalog (.ofRoutine ⟨0⟩) =
      .ok "new App.Worker()" := by
    obtain ⟨s, hs, he⟩ := map_eq_ok_iff.1 (located.symm.trans textOf_guardedCatalog)
    have worker : (Frame.ofRoutine ⟨0⟩).behind "new App.Worker()" =
        "new App.Worker() in :line 0" := by decide +kernel
    rwa [Frame.behind_injective _ (he.trans worker.symm)] at hs
  have without : ((standard.located false).render guardedCatalog workerFrames).outcome =
      .ok ⟨["new App.Worker()", "new App.Worker()"], standard.frameLead, standard.separator⟩ := by
    refine render_eq_ok_iff.2 ⟨?_, .cons plain (.cons ?_ .nil), rfl, rfl⟩
    · intro f hf
      simp only [workerFrames, List.mem_cons, List.not_mem_nil, or_false] at hf
      rcases hf with rfl | rfl <;> exact ⟨⟨0⟩, _, rfl, rfl⟩
    · exact (congrArg Logged.outcome (placed _ _)).trans plain
  refine ⟨without, ((traces _ _ _).2 _ without).2.trans ?_⟩
  decide +kernel

end Renderer

end ReadableTrace
