/-!
# Styles of frames

A frame is shown in one of four styles, according to the routine that was active. `Style.all` lists
them in the order in which they are tried.
-/

namespace ReadableTrace

/-- How a frame is shown. -/
inductive Style
  /-- A lambda is shown as the field that holds it. -/
  | lambda
  /-- A step of a state machine is shown as the async method it was made from. -/
  | asyncMethod
  /-- Any other method, a local function or an indexer. -/
  | method
  /-- A constructor. -/
  | constructor
  deriving DecidableEq

namespace Style

/-- The styles in the order in which they are tried: the special ones before the general one. -/
def all : List Style := [lambda, asyncMethod, method, constructor]

/-- The name of a style in reports. -/
def label : Style → String
  | lambda => "lambda"
  | asyncMethod => "async_state"
  | method => "method"
  | constructor => "constructor"

/-- The style of a name. -/
def ofLabel? (name : String) : Option Style := all.find? (·.label == name)

theorem mem_all (s : Style) : s ∈ all := by
  cases s <;> decide

end Style

end ReadableTrace
