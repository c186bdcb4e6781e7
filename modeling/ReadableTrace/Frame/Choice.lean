import ReadableTrace.Frame.Text

/-!
# Choosing the style of a frame

Every style claims a class of routines. Of the styles that are allowed, the first in the order of
`Style.all` that claims a frame shows it (`Frame.choose`).
-/

namespace ReadableTrace

open Log

namespace Style

/-- The interface of the state machines that a compiler makes. -/
def stateMachineInterface : String := "System.Runtime.CompilerServices.IAsyncStateMachine"

/-- Whether a name is that of a lambda in the initial value of a static field. -/
def isInitializerLambda (name : String) : Bool :=
  match Name.decode name with
  | .ok d => d.logical == ".cctor" && d.inner.bind (·.kind) == some .closure
  | .error _ => false

/-- Whether a style is meant for a routine. -/
def fits (s : Style) (c : Catalog) (r : Routine) : Bool :=
  match s with
  | lambda => r.isMethod && isInitializerLambda r.name
  | asyncMethod =>
    r.isMethod && (r.reflected.bind c.type?).any (·.implements stateMachineInterface)
  | method => r.isMethod
  | constructor => r.isConstructor

/-- Whether a style claims a frame. -/
def claims (s : Style) (c : Catalog) (f : Frame) : Logged Fault Bool := do
  let (ref, r) ← Logged.lift (f.resolve c)
  if s.fits c r then
    Logged.note (.claimed s ref)
    pure true
  else pure false

/-- Some of the styles, in the order in which they are tried. -/
def only (allowed : List Style) : List Style := all.filter (allowed.contains ·)

end Style

namespace Frame

/-- The first of some styles that claims a frame. -/
def choose (c : Catalog) (f : Frame) : List Style → Logged Fault Style
  | [] => do
    let (ref, r) ← Logged.lift (f.resolve c)
    Logged.note (.unclaimed ref r.name)
    Logged.fail (.unclaimed r.name)
  | s :: rest => do
    let claimed ← s.claims c f
    if claimed then pure s else choose c f rest

/-- The text of a frame in the first of some styles that claims it. -/
def render (f : Frame) (v : View) (styles : List Style) : Logged Fault String := do
  let style ← choose v.catalog f styles
  let (ref, _) ← Logged.lift (f.resolve v.catalog)
  Logged.note (.rendering ref style)
  style.render v f

end Frame

end ReadableTrace
