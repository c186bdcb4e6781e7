import ReadableTrace.Proofs.Log.Run

/-!
# Events in the log

Whichever way an event takes to the log, once records are let through it leaves the same entry
(`Entry.ofEvent`), if its severity is one that is kept (`Sink.noteAll_eq`). The label of the entry
tells the severity (`Entry.severity?_ofEvent`), so that what another verbosity would keep can be
seen in the file (`Entry.isKept`).
-/

namespace ReadableTrace.Log

/-! ## Entries -/

namespace Verbosity

/-- Whether records of a severity are kept. -/
def keeps (v : Verbosity) (severity : Severity) : Bool := ofSeverity severity ≤ v

theorem not_keeps_off (severity : Severity) : off.keeps severity = false := by
  cases severity <;> rfl

/-- A stronger filter stands for a verbosity that keeps at least as much. Two filters may stand for
the same verbosity. -/
theorem ofFilter_mono {f g : Filter} (h : f.rank ≤ g.rank) : ofFilter f ≤ ofFilter g := by
  revert h
  cases f <;> cases g <;> decide

theorem keeps_of_le {v w : Verbosity} (h : v ≤ w) {severity : Severity}
    (hk : v.keeps severity = true) : w.keeps severity = true :=
  decide_eq_true (Nat.le_trans (of_decide_eq_true hk) h)

end Verbosity

namespace Entry

/-- The entry of an event. -/
def ofEvent (e : Event) : Entry := .message e.severity.label e.category e.message

/-- The severity of the record that an entry was made of, by its label. -/
def severity? : Entry → Option Severity
  | banner _ => none
  | message label _ _ =>
    [Severity.error, .warn, .info, .debug, .trace].find? fun severity => severity.label == label

/-- Whether an entry is made of a record that a verbosity keeps. -/
def isKept (v : Verbosity) (e : Entry) : Bool := e.severity?.any v.keeps

theorem severity?_ofEvent (e : Event) : (ofEvent e).severity? = some e.severity := by
  rw [ofEvent]
  cases e.severity <;> rfl

theorem isKept_ofEvent (v : Verbosity) (e : Event) :
    (ofEvent e).isKept v = v.keeps e.severity := by
  rw [isKept, severity?_ofEvent]
  rfl

end Entry

/-! ## Events -/

namespace Sink

variable {s : Sink}

theorem stepOf_cases (e : Event) :
    (stepOf e = .report (.ofSeverity e.severity) e.category e.message ∧
      labelOf (.ofSeverity e.severity) = e.severity.label) ∨
    stepOf e = .record e.severity e.category e.message := by
  unfold stepOf
  split
  · exact .inl ⟨rfl, rfl⟩
  · exact .inl ⟨rfl, rfl⟩
  · exact .inr rfl

/-- However an event reaches the log, it has the same entry. -/
theorem told_stepOf (hb : s.isBridged = true) (e : Event) :
    s.told (stepOf e) = if s.verbosity.keeps e.severity then some (.ofEvent e) else none := by
  simp only [Verbosity.keeps, decide_eq_true_iff]
  obtain ⟨he, hl⟩ | he := stepOf_cases e
  · simp only [he, told, hl, ne_eq, ofSeverity_ne_off, not_false_eq_true, true_and]
    rfl
  · simp only [he, told, hb, true_and]
    rfl

theorem step_stepOf (h : s.InStep) (e : Event) :
    s.step (stepOf e) = s.adding (s.told (stepOf e)).toList := by
  obtain ⟨he, -⟩ | he := stepOf_cases e
  · rw [he]
    exact step_of_message h rfl rfl
  · rw [he]
    exact step_of_message h rfl rfl

/-- Events that reach a log leave the entries of those that are kept. -/
theorem noteAll_eq (h : s.InStep) (hb : s.isBridged = true) (events : List Event) :
    s.noteAll events =
      s.adding ((events.filter (s.verbosity.keeps ·.severity)).map .ofEvent) := by
  induction events generalizing s with
  | nil => exact (adding_nil s).symm
  | cons e events ih =>
    have one : s.step (stepOf e) =
        s.adding (([e].filter (s.verbosity.keeps ·.severity)).map .ofEvent) := by
      rw [step_stepOf h, told_stepOf hb, List.filter_cons, List.filter_nil]
      split <;> rfl
    have next := h.step (stepOf e)
    rw [one] at next
    rw [← List.singleton_append, List.filter_append, List.map_append, adding_append, noteAll,
      List.singleton_append, List.foldl_cons, one]
    exact ih next hb

theorem noteAll_append (s : Sink) (front back : List Event) :
    s.noteAll (front ++ back) = (s.noteAll front).noteAll back :=
  List.foldl_append

/-- A log that was just bridged is in step, whatever it was like before. -/
theorem bridge_eq (s : Sink) (f : Filter) :
    s.bridge (some f) = ⟨.ofFilter f, (Verbosity.ofFilter f).toFilter, true,
      s.file.or (newFile (.ofFilter f))⟩ := by
  rw [bridge, setVerbosity_eq]

theorem inStep_bridge (s : Sink) (f : Filter) : (s.bridge (some f)).InStep := by
  rw [bridge_eq]
  exact ⟨rfl, isSome_or_newFile _⟩

end Sink

end ReadableTrace.Log
