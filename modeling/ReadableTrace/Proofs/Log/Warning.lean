import ReadableTrace.Fault
import ReadableTrace.Log.Logged

/-!
# Warnings and failures

A failure is warned of when it is found, at one place, and is then passed on as it is. So the
warnings of a computation can be read off its outcome: there is one if the failure is of a kind that
is warned of (`Fault.warnings`), and none otherwise (`Logged.Warned`). Most computations report
nothing else of note (`Logged.WarnsOnly`). Both are kept by every way of putting computations
together; the kinds of failure that are not warned of come from plain outcomes (`Unwarned`).
-/

namespace ReadableTrace

open Log

/-- How many warnings a failure comes with: one if no style claims a frame or if the catalog
contradicts itself, and none if something is missing or if a name cannot be read. -/
def Fault.warnings (e : Fault) : Nat :=
  match e.kind with
  | .unsupported | .inconsistent => 1
  | .absent | .invalid => 0

/-- How many warnings an outcome comes with. -/
def Outcome.warnings {α : Type} : Except Fault α → Nat
  | .ok _ => 0
  | .error e => e.warnings

namespace Log.Logged

variable {ε α β : Type}

/-- The events of a severity. -/
def reports (x : Logged ε α) (s : Severity) : List Event := x.events.filter (·.severity = s)

/-- As many warnings are given as the outcome comes with. -/
def Warned (x : Logged Fault α) : Prop := (x.reports .warn).length = Outcome.warnings x.outcome

/-- As many warnings are given as the outcome comes with, and nothing is told at the severity
`debug`. -/
structure WarnsOnly (x : Logged Fault α) : Prop where
  warned : x.Warned
  quiet : x.reports .debug = []

/-- The failures of an outcome come without warnings. -/
def Unwarned (x : Except Fault α) : Prop := Outcome.warnings x = 0

/-! ## Outcomes without events -/

theorem Unwarned.bind {x : Except Fault α} {f : α → Except Fault β} (hx : Unwarned x)
    (hf : ∀ a, Unwarned (f a)) : Unwarned (x >>= f) := by
  cases x with
  | error e => exact hx
  | ok a => exact hf a

theorem Unwarned.map {x : Except Fault α} (hx : Unwarned x) (f : α → β) : Unwarned (x.map f) := by
  cases x with
  | error e => exact hx
  | ok a => rfl

/-! ## Warnings -/

theorem reports_bind_of_ok {x : Logged ε α} {a : α} (h : x.outcome = .ok a) (f : α → Logged ε β)
    (s : Severity) : (x >>= f).reports s = x.reports s ++ (f a).reports s := by
  rw [reports, events_bind_of_ok h, List.filter_append]
  rfl

theorem reports_bind_of_error {x : Logged ε α} {e : ε} (h : x.outcome = .error e)
    (f : α → Logged ε β) (s : Severity) : (x >>= f).reports s = x.reports s := by
  rw [reports, events_bind_of_error h]
  rfl

theorem reports_map (x : Logged ε α) (f : α → β) (s : Severity) :
    (f <$> x).reports s = x.reports s := by
  rw [map_eq_pure_bind]
  cases h : x.outcome with
  | error e => exact reports_bind_of_error h _ s
  | ok a =>
    rw [reports_bind_of_ok h]
    exact List.append_nil _

theorem reports_note_of_eq {e : Event} {s : Severity} (h : e.severity = s) :
    (Logged.note e : Logged ε Unit).reports s = [e] :=
  List.filter_cons_of_pos (by simpa using h)

theorem reports_note_of_ne {e : Event} {s : Severity} (h : e.severity ≠ s) :
    (Logged.note e : Logged ε Unit).reports s = [] :=
  List.filter_cons_of_neg (by simpa using h)

theorem Warned.lift {x : Except Fault α} (h : Unwarned x) : (Logged.lift x).Warned := h.symm

theorem Warned.note {e : Event} (h : e.severity ≠ .warn) :
    (Logged.note e : Logged Fault Unit).Warned := by
  rw [Warned, reports_note_of_ne h]
  rfl

theorem Warned.note_debug {e : Event} (h : e.severity = .debug) :
    (Logged.note e : Logged Fault Unit).Warned :=
  .note fun hw => nomatch h.symm.trans hw

theorem Warned.bind {x : Logged Fault α} {f : α → Logged Fault β} (hx : x.Warned)
    (hf : ∀ a, (f a).Warned) : (x >>= f).Warned := by
  rw [Warned, outcome_bind]
  cases h : x.outcome with
  | error e =>
    rw [reports_bind_of_error h, hx, h]
    rfl
  | ok a =>
    have none : (x.reports .warn).length = 0 := by rw [hx, h]; rfl
    rw [reports_bind_of_ok h, List.length_append, none, Nat.zero_add]
    exact hf a

theorem Warned.map {x : Logged Fault α} (hx : x.Warned) (f : α → β) : (f <$> x).Warned := by
  rw [map_eq_pure_bind]
  exact hx.bind fun _ => rfl

/-- What succeeds does so without warnings. -/
theorem Warned.of_ok {x : Logged Fault α} {a : α} (hx : x.Warned) (h : x.outcome = .ok a) :
    x.reports .warn = [] := by
  rw [Warned, h] at hx
  exact List.length_eq_zero_iff.1 hx

/-! ## Warnings only -/

namespace WarnsOnly

theorem lift {x : Except Fault α} (h : Unwarned x) : (Logged.lift x).WarnsOnly := ⟨.lift h, rfl⟩

theorem pure (a : α) : (pure a : Logged Fault α).WarnsOnly := ⟨rfl, rfl⟩

theorem fail {e : Fault} (h : e.warnings = 0) : (Logged.fail e : Logged Fault α).WarnsOnly :=
  ⟨h.symm, rfl⟩

/-- A failure that is warned of. -/
theorem report {w : Event} {e : Fault} (hw : w.severity = .warn) (he : e.warnings = 1) :
    (do Logged.note w; Logged.fail e : Logged Fault α).WarnsOnly := by
  have quiet : w.severity ≠ .debug := by
    rw [hw]
    decide
  constructor
  · rw [Warned, reports_bind_of_ok (outcome_note w), reports_note_of_eq hw]
    exact he.symm
  · rw [reports_bind_of_ok (outcome_note w), reports_note_of_ne quiet]
    rfl

/-- Something that is only told to those who ask for everything. -/
theorem note {e : Event} (h : e.severity = .trace) :
    (Logged.note e : Logged Fault Unit).WarnsOnly := by
  have other {s : Severity} (hs : s ≠ .trace) : e.severity ≠ s := h ▸ hs.symm
  exact ⟨.note (other (by decide)), reports_note_of_ne (other (by decide))⟩

theorem bind {x : Logged Fault α} {f : α → Logged Fault β} (hx : x.WarnsOnly)
    (hf : ∀ a, (f a).WarnsOnly) : (x >>= f).WarnsOnly := by
  refine ⟨hx.warned.bind fun a => (hf a).warned, ?_⟩
  cases h : x.outcome with
  | error e => rw [reports_bind_of_error h, hx.quiet]
  | ok a => rw [reports_bind_of_ok h, hx.quiet, (hf a).quiet, List.append_nil]

theorem map {x : Logged Fault α} (hx : x.WarnsOnly) (f : α → β) : (f <$> x).WarnsOnly := by
  rw [map_eq_pure_bind]
  exact hx.bind fun _ => pure _

theorem traverse {f : α → Logged Fault β} (hf : ∀ a, (f a).WarnsOnly) (as : List α) :
    (Logged.traverse f as).WarnsOnly := by
  induction as with
  | nil => exact pure _
  | cons a as ih => exact (hf a).bind fun _ => ih.bind fun _ => pure _

end WarnsOnly

end Log.Logged

end ReadableTrace
