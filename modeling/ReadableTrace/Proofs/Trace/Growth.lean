import ReadableTrace.Proofs.Frame.Growth
import ReadableTrace.Proofs.Trace.Shown

/-!
# Traces in a catalog that grows

A trace stays as it is when the catalog gets more types behind its own, whatever these are, as far
as the reflected types of the visible routines were known (`render_withTypes`). Each frame is kept
for itself (`kept_entry`); the frames that are shown only depend on the routines.
-/

namespace ReadableTrace.Renderer

open Log Outcome

variable {r : Renderer} {c c' : Catalog} {f : Frame}

theorem shows_of_growsTo (h : c.GrowsTo c') : r.shows c' f = r.shows c f := by
  have same : c'.isHidden = c.isHidden := by
    funext ref
    rw [Catalog.isHidden, Catalog.isHidden, h.routine?]
  rw [shows, shows, Frame.isHidden, Frame.isHidden, same]

theorem kept_entry (h : c.GrowsTo c') (known : r.shows c f = true → f.ReflectsKnown c) :
    Kept (r.entry c f) (r.entry c' f) := by
  rw [entry, entry, Frame.resolve_of_growsTo h, shows_of_growsTo h]
  refine (Kept.refl _).bind fun _ _ => ?_
  split
  · rename_i hs
    have text : Kept (r.textOf c f) (r.textOf c' f) :=
      Frame.kept_render (v := r.view c) h r.styles (known hs)
    exact text.map _
  · exact .refl _

/-- **More types never change a trace.** A trace that is made is made alike with more types behind
those of the catalog, if the routine of every frame that is shown has a reflected type that is known
or none at all. The new types may be anything. -/
theorem render_withTypes {r : Renderer} {c : Catalog} {frames : List Frame} {t : Trace}
    (made : (r.render c frames).outcome = .ok t)
    (known : ∀ f ∈ frames, r.shows c f = true → f.ReflectsKnown c) (more : List TypeEntry) :
    (r.render (c.withTypes more) frames).outcome = .ok t := by
  rw [outcome_render] at made ⊢
  have entries := Kept.mapM fun f hf => kept_entry (Catalog.growsTo_withTypes c more) (known f hf)
  exact entries.map _ t made

/-- A generic type without a name that is its own only argument, with a definition that is not
there. -/
def malformedType : TypeEntry :=
  { TypeEntry.ofName none " " with shape := .generic (some ⟨7⟩) [⟨1⟩] }

theorem render_guardedCatalog_withTypes :
    ∃ t, (standard.render guardedCatalog [.ofRoutine ⟨0⟩]).outcome = .ok t ∧
      (∀ f ∈ [Frame.ofRoutine ⟨0⟩], standard.shows guardedCatalog f = true →
        f.ReflectsKnown guardedCatalog) ∧
      (standard.render (guardedCatalog.withTypes [malformedType]) [.ofRoutine ⟨0⟩]).outcome =
        .ok t ∧
      t.frames = ["new App.Worker() in :line 0"] := by
  have made : (standard.render guardedCatalog [.ofRoutine ⟨0⟩]).outcome =
      .ok ⟨["new App.Worker() in :line 0"], standard.frameLead, standard.separator⟩ := by
    refine render_eq_ok_iff.2 ⟨?_, .cons textOf_guardedCatalog .nil, rfl, rfl⟩
    intro f hf
    obtain rfl := List.mem_singleton.1 hf
    exact ⟨⟨0⟩, _, rfl, rfl⟩
  have known : ∀ f ∈ [Frame.ofRoutine ⟨0⟩], standard.shows guardedCatalog f = true →
      f.ReflectsKnown guardedCatalog := by
    intro f hf _ ref m r href hm hr
    obtain rfl := List.mem_singleton.1 hf
    obtain rfl := Option.some.inj href
    obtain rfl := Option.some.inj hm
    obtain rfl := Option.some.inj hr
    exact ⟨_, rfl⟩
  exact ⟨_, made, known, render_withTypes made known [malformedType], rfl⟩

end ReadableTrace.Renderer
