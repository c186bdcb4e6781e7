import ReadableTrace.Proofs.Frame.Heading
import ReadableTrace.Proofs.Trace.Location

/-!
# The lines of a trace

The text of a trace is taken apart into its frames. If one character separates the frames and stands
neither in a frame nor in what is written in front of every frame, then the text cut at each of
these characters has one piece for each frame, in order (`Trace.pieces_text`). No frame is empty
(`Renderer.ne_empty_of_mem`), so that the empty text belongs to a trace without frames only
(`Renderer.text_eq_empty_iff`). The text of a trace of two lists of frames is that of the one, a
separator, and that of the other. `Renderer.render_lines` puts these together.
-/

namespace ReadableTrace

open Outcome

/-- The pieces of a text between the places where a character stands. -/
def Text.pieces (ch : Char) (s : String) : List String := (s.split ch).toList.map (·.copy)

namespace Trace

variable {t t' : Trace} {ch : Char}

/-- A character separates the frames, and all else of the trace is free of it. -/
structure SeparatedBy (t : Trace) (ch : Char) : Prop where
  separator : t.separator = String.singleton ch
  frameLead : ch ∉ t.frameLead.toList
  frames : ∀ s ∈ t.frames, ch ∉ s.toList

/-- A text that is cut where its frames are separated has one piece for each frame. -/
theorem pieces_text (h : t.SeparatedBy ch) (hf : t.frames ≠ []) :
    Text.pieces ch t.text = t.frames.map (t.frameLead ++ ·) := by
  have free : ∀ s ∈ t.frames.map (t.frameLead ++ ·), ch ∉ s.toList := by
    simp only [List.mem_map, forall_exists_index, and_imp, forall_apply_eq_imp_iff₂,
      String.toList_append, List.mem_append, not_or]
    exact fun s hs => ⟨h.frameLead, h.frames s hs⟩
  rw [Text.pieces, text, h.separator, String.toList_split_intercalate free,
    if_neg (mt List.map_eq_nil_iff.1 hf)]

/-- Of traces that are separated alike, those with frames can be told by their texts. -/
theorem frames_eq_of_text_eq (h : t.SeparatedBy ch) (h' : t'.SeparatedBy ch)
    (lead : t.frameLead = t'.frameLead) (hf : t.frames ≠ []) (hf' : t'.frames ≠ [])
    (he : t.text = t'.text) : t.frames = t'.frames := by
  have pieces : t.frames.map (t.frameLead ++ ·) = t'.frames.map (t'.frameLead ++ ·) := by
    rw [← pieces_text h hf, ← pieces_text h' hf', he]
  rw [← lead] at pieces
  exact List.map_injective_iff.2 (fun _ _ => (String.append_right_inj _).1) pieces

/-- The text of a trace is empty if there are no frames, and if the only frame and what is written
in front of it are. -/
theorem text_eq_empty_iff (h : ∀ s ∈ t.frames, s ≠ "") : t.text = "" ↔ t.frames = [] := by
  cases hf : t.frames with
  | nil => simp [text, hf]
  | cons s rest =>
    have first : s ≠ "" := h s (hf ▸ List.mem_cons_self)
    cases rest <;> simp [text, hf, first]

/-- The text of frames behind each other. -/
theorem text_append {xs ys : List String} (hx : xs ≠ []) (hy : ys ≠ []) (lead separator : String) :
    (Trace.mk (xs ++ ys) lead separator).text =
      (Trace.mk xs lead separator).text ++ separator ++ (Trace.mk ys lead separator).text := by
  simp only [text, List.map_append]
  exact String.intercalate_append_of_ne_nil (mt List.map_eq_nil_iff.1 hx)
    (mt List.map_eq_nil_iff.1 hy)

end Trace

/-- A frame that is shown is shown in one of the styles. -/
theorem Frame.exists_style_of_render {f : Frame} {v : View} {styles : List Style} {s : String}
    (h : (f.render v styles).outcome = .ok s) :
    ∃ style : Style, (style.render v f).outcome = .ok s := by
  simp only [Frame.render, Log.Logged.outcome_bind, bind_eq_ok_iff] at h
  obtain ⟨style, -, -, -, -, -, h⟩ := h
  exact ⟨style, h⟩

namespace Renderer

variable {r : Renderer} {c : Catalog} {frames xs ys : List Frame} {t front back : Trace}

/-- No frame of a trace is empty. -/
theorem ne_empty_of_mem (h : (r.render c frames).outcome = .ok t) : ∀ s ∈ t.frames, s ≠ "" := by
  obtain ⟨-, texts, -⟩ := render_eq_ok_iff.1 h
  have shown (f : Frame) (s : String) (hs : r.textOf c f = .ok s) : s ≠ "" := by
    obtain ⟨style, hs⟩ := Frame.exists_style_of_render hs
    exact Style.ne_empty_of_render hs
  exact ((List.forall₂_and_left _ _).1 (texts.flip.imp fun s f hs => ⟨shown f s hs, hs⟩)).1

/-- The traces of two lists of frames make up the trace of both. -/
theorem render_append (hx : (r.render c xs).outcome = .ok front)
    (hy : (r.render c ys).outcome = .ok back) :
    (r.render c (xs ++ ys)).outcome =
      .ok ⟨front.frames ++ back.frames, r.frameLead, r.separator⟩ := by
  obtain ⟨known, texts, -⟩ := render_eq_ok_iff.1 hx
  obtain ⟨known', texts', -⟩ := render_eq_ok_iff.1 hy
  refine render_eq_ok_iff.2 ⟨List.forall_mem_append.2 ⟨known, known'⟩, ?_, rfl, rfl⟩
  rw [List.filter_append]
  exact List.rel_append texts texts'

/-- A trace is what it was made by, besides its frames. -/
theorem eq_of_render (h : (r.render c frames).outcome = .ok t) :
    t = ⟨t.frames, r.frameLead, r.separator⟩ := by
  obtain ⟨-, -, lead, separator⟩ := render_eq_ok_iff.1 h
  rw [← lead, ← separator]

/-- **The text of a trace determines its frames.** It is empty if and only if no frame is shown. If
one character separates the frames, and neither a frame nor what is written in front of it holds
that character, then the text cut at this character has one piece for each frame, in order; so two
traces with the same text show the same frames. Two lists of frames are shown one behind the other
exactly if each is shown, and if both keep a frame then a separator stands between their texts. -/
theorem render_lines (r : Renderer) (c : Catalog) :
    (∀ frames t, (r.render c frames).outcome = .ok t → (t.text = "" ↔ t.frames = [])) ∧
    (∀ frames t ch, (r.render c frames).outcome = .ok t → t.SeparatedBy ch → t.frames ≠ [] →
      Text.pieces ch t.text = t.frames.map (r.frameLead ++ ·)) ∧
    (∀ frames frames' t t' ch, (r.render c frames).outcome = .ok t →
      (r.render c frames').outcome = .ok t' → t.SeparatedBy ch → t'.SeparatedBy ch →
      t.text = t'.text → t.frames = t'.frames) ∧
    (∀ xs ys, (∃ t, (r.render c (xs ++ ys)).outcome = .ok t) ↔
      (∃ front, (r.render c xs).outcome = .ok front) ∧
        ∃ back, (r.render c ys).outcome = .ok back) ∧
    ∀ xs ys front back t, (r.render c xs).outcome = .ok front →
      (r.render c ys).outcome = .ok back → (r.render c (xs ++ ys)).outcome = .ok t →
      front.frames ≠ [] → back.frames ≠ [] → t.text = front.text ++ r.separator ++ back.text := by
  have empty_iff {frames t} (h : (r.render c frames).outcome = .ok t) :
      t.text = "" ↔ t.frames = [] :=
    Trace.text_eq_empty_iff (ne_empty_of_mem h)
  have lead {frames t} (h : (r.render c frames).outcome = .ok t) : t.frameLead = r.frameLead :=
    (render_eq_ok_iff.1 h).2.2.1
  refine ⟨fun frames t => empty_iff, fun frames t ch h hs hf => ?_,
    fun frames frames' t t' ch h h' hs hs' he => ?_, fun xs ys => ⟨?_, ?_⟩,
    fun xs ys front back t hx hy h hf hb => ?_⟩
  · rw [Trace.pieces_text hs hf, lead h]
  · by_cases hf : t.frames = []
    · rw [hf, (empty_iff h').1 (he ▸ (empty_iff h).2 hf)]
    · have hf' : t'.frames ≠ [] := fun hf' => hf ((empty_iff h).1 (he.trans ((empty_iff h').2 hf')))
      exact Trace.frames_eq_of_text_eq hs hs' ((lead h).trans (lead h').symm) hf hf' he
  · rintro ⟨t, h⟩
    obtain ⟨front, back, hx, hy, -⟩ := exists_of_render_append h
    exact ⟨⟨front, hx⟩, back, hy⟩
  · rintro ⟨⟨front, hx⟩, back, hy⟩
    exact ⟨_, render_append hx hy⟩
  · obtain rfl := Except.ok.inj (h.symm.trans (render_append hx hy))
    rw [Trace.text_append hf hb, ← eq_of_render hx, ← eq_of_render hy]

/-! ## A hidden frame between two others -/

/-- Frames of a constructor with a hidden frame between them. -/
def guardedFrames : List Frame := [.ofRoutine ⟨0⟩, .ofRoutine ⟨1⟩, .ofRoutine ⟨0⟩]

/-- What the usual renderer makes of these frames. -/
def guardedTrace : Trace where
  frames := ["new App.Worker() in :line 0", "new App.Worker() in :line 0"]
  frameLead := "   at "
  separator := "\n"

theorem render_guardedFrames :
    (standard.render guardedCatalog guardedFrames).outcome = .ok guardedTrace := by
  have visible : guardedFrames.filter (standard.shows guardedCatalog) =
      [.ofRoutine ⟨0⟩, .ofRoutine ⟨0⟩] := by decide
  refine render_eq_ok_iff.2 ⟨?_, ?_, rfl, rfl⟩
  · simp only [guardedFrames, List.forall_mem_cons, List.not_mem_nil, false_imp_iff, implies_true,
      and_true]
    exact ⟨⟨⟨0⟩, _, rfl, rfl⟩, ⟨⟨1⟩, _, rfl, rfl⟩, ⟨0⟩, _, rfl, rfl⟩
  · rw [visible]
    exact .cons textOf_guardedCatalog (.cons textOf_guardedCatalog .nil)

theorem render_lines_guardedFrames :
    (standard.render guardedCatalog guardedFrames).outcome = .ok guardedTrace ∧
    guardedTrace.SeparatedBy '\n' ∧ guardedTrace.text ≠ "" ∧
    Text.pieces '\n' guardedTrace.text =
      ["   at new App.Worker() in :line 0", "   at new App.Worker() in :line 0"] ∧
    ∃ t, (standard.render guardedCatalog (guardedFrames ++ guardedFrames)).outcome = .ok t ∧
      t.text = guardedTrace.text ++ "\n" ++ guardedTrace.text := by
  have separated : guardedTrace.SeparatedBy '\n' := ⟨by decide, by decide, by decide⟩
  have kept : guardedTrace.frames ≠ [] := by decide
  obtain ⟨empty_iff, cut, -, made_iff, joined⟩ := render_lines standard guardedCatalog
  obtain ⟨t, ht⟩ :=
    (made_iff guardedFrames guardedFrames).2 ⟨⟨_, render_guardedFrames⟩, _, render_guardedFrames⟩
  refine ⟨render_guardedFrames, separated, mt (empty_iff _ _ render_guardedFrames).1 kept, ?_, t, ht,
    joined _ _ _ _ _ render_guardedFrames render_guardedFrames ht kept kept⟩
  rw [cut _ _ _ render_guardedFrames separated kept]
  decide

end Renderer

end ReadableTrace
