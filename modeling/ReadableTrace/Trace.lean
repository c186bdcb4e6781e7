import ReadableTrace.Frame.Choice

/-!
# Traces

`Renderer.render` shows a list of frames, the innermost first. Frames of hidden routines are left
out unless they are asked for; the others keep their order. One frame that cannot be shown fails the
whole trace. `Trace.text` puts the frames together.
-/

namespace ReadableTrace

open Log

/-- How traces are made. -/
structure Renderer where
  /-- How the full names of the framework's own types begin. -/
  frameworkLead : String
  /-- The allowed styles, in the order in which they are tried. -/
  styles : List Style
  /-- Written in front of every frame. -/
  frameLead : String
  /-- Written between two frames. -/
  separator : String
  showLocation : Bool
  showHidden : Bool
  deriving DecidableEq

/-- Frames that were shown, and how they are put together. -/
structure Trace where
  frames : List String
  frameLead : String
  separator : String
  deriving DecidableEq

/-- The text of a trace. -/
def Trace.text (t : Trace) : String := t.separator.intercalate (t.frames.map (t.frameLead ++ ·))

namespace Renderer

/-- The renderer that settings describe. -/
def ofSettings (s : Settings) : Renderer where
  frameworkLead := s.frameworkLead
  styles := Style.all
  frameLead := s.frameLead
  separator := s.separator
  showLocation := s.showLocation
  showHidden := s.showHidden

/-- The renderer for the usual settings. -/
def standard : Renderer := ofSettings .standard

/-- What decides how frames are shown against a catalog. -/
def view (r : Renderer) (c : Catalog) : View := ⟨c, r.frameworkLead, r.showLocation⟩

/-- The texts of the frames that are shown. The first frame of the list has the given position. -/
def texts (r : Renderer) (c : Catalog) : Nat → List Frame → Logged Fault (List String)
  | _, [] => pure []
  | position, f :: rest => do
    let (ref, routine) ← Logged.lift (f.resolve c)
    if !r.showHidden && c.isHidden ref then
      Logged.note (.hiddenDropped position routine.name)
      texts r c (position + 1) rest
    else
      let text ← f.render (r.view c) r.styles
      let others ← texts r c (position + 1) rest
      pure (text :: others)

/-- The trace of some frames. -/
def render (r : Renderer) (c : Catalog) (frames : List Frame) : Logged Fault Trace := do
  let shown ← r.texts c 0 frames
  Logged.note (.framesDone shown.length frames.length)
  pure ⟨shown, r.frameLead, r.separator⟩

end Renderer

end ReadableTrace
