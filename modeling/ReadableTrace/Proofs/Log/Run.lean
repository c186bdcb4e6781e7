import ReadableTrace.Log.Sink
import Mathlib.Data.List.Induction

/-!
# Runs of the log

Whatever is done to the log of a new process, the filter in front of it is the one that its
verbosity needs, and its file is open unless nothing was ever to be kept (`Sink.InStep`). So the
gates on the way to the file agree, and a message comes down to a single one (`Sink.told`): an open
file grows by exactly what the steps of a run tell, in their order (`file_after_of_open`).
-/

namespace ReadableTrace.Log.Sink

variable {s : Sink} {st : Step} {steps : List Step} {entries : List Entry} {v : Verbosity}

/-! ## What is asked of the log -/

/-- The verbosity that a step sets. -/
def Step.sets? : Step → Option Verbosity
  | setVerbosity v => some v
  | bridge filter => filter.map .ofFilter
  | write _ _ _ | report _ _ _ | record _ _ _ => none

/-- Whether a step lets records through. -/
def Step.isBridge : Step → Bool
  | bridge _ => true
  | setVerbosity _ | write _ _ _ | report _ _ _ | record _ _ _ => false

/-- The entry that a step is to leave in the file: that of a message whose level is kept. Records
have to be let through besides. -/
def told (s : Sink) : Step → Option Entry
  | .write level category message | .report level category message =>
    if level ≠ .off ∧ level ≤ s.verbosity then some (.message (labelOf level) category message)
    else none
  | .record severity category message =>
    if s.isBridged = true ∧ .ofSeverity severity ≤ s.verbosity then
      some (.message severity.label category message)
    else none
  | .setVerbosity _ | .bridge _ => none

/-- The file of a log that has just been set to a verbosity, if it was not open before. -/
def newFile (v : Verbosity) : Option (List Entry) := if v = .off then none else some [.banner v]

/-! ## Single steps -/

/-- The gates agree: the filter in front lets through what is kept, and there is a file if anything
is. -/
structure InStep (s : Sink) : Prop where
  front : s.front = s.verbosity.toFilter
  isOpen : s.verbosity ≠ .off → s.file.isSome = true

/-- If the gates agree then the filter in front lets through the records that are kept. -/
theorem InStep.passes (h : s.InStep) (severity : Severity) :
    s.front.passes severity = s.isEnabled (.ofSeverity severity) := by
  rw [h.front, Verbosity.passes_toFilter, isEnabled]

theorem or_newFile {file : Option (List Entry)} (h : v ≠ .off → file.isSome = true) :
    file.or (newFile v) = file := by
  cases file with
  | some entries => rfl
  | none =>
    have hv : v = .off := Decidable.not_not.1 fun hv => nomatch h hv
    rw [hv]
    rfl

theorem isSome_or_newFile (file : Option (List Entry)) (h : v ≠ .off) :
    (file.or (newFile v)).isSome = true := by
  rw [newFile, if_neg h, Option.isSome_or, Option.isSome_some, Bool.or_true]

theorem setVerbosity_eq (s : Sink) (v : Verbosity) :
    s.setVerbosity v =
      ⟨v, v.toFilter, s.isBridged, s.file.or (newFile v)⟩ := by
  rcases s with ⟨_, _, _, file⟩
  cases v <;> cases file <;> rfl

/-- A log with more entries in its file, if it is open. -/
def adding (s : Sink) (entries : List Entry) : Sink :=
  { s with file := s.file.map (· ++ entries) }

theorem adding_nil (s : Sink) : s.adding [] = s := by
  simp [adding]

theorem adding_append (s : Sink) (front back : List Entry) :
    s.adding (front ++ back) = (s.adding front).adding back := by
  simp only [adding, Option.map_map, Function.comp_def, List.append_assoc]

theorem log_eq (s : Sink) (level : Verbosity) (label category message : String) :
    s.log level label category message =
      s.adding (if level ≠ .off ∧ level ≤ s.verbosity then some (.message label category message)
        else none).toList := by
  rw [log, Verbosity.admits]
  by_cases h : level ≠ .off ∧ level ≤ s.verbosity
  · rw [if_pos h, if_pos (by simpa using h)]
    rfl
  · rw [if_neg h, if_neg (by simpa using h)]
    exact (adding_nil s).symm

theorem report_eq (s : Sink) (level : Verbosity) (category message : String) :
    s.report level category message = s.write level category message := by
  rw [report, write, log_eq]
  split
  · rfl
  · rename_i hl
    rw [if_neg fun hk => hl (decide_eq_true hk.2)]
    exact (adding_nil s).symm

theorem ofSeverity_ne_off (severity : Severity) : Verbosity.ofSeverity severity ≠ .off := by
  cases severity <;> exact nofun

theorem record_eq (h : s.InStep) (severity : Severity) (category message : String) :
    s.record severity category message =
      s.adding (s.told (.record severity category message)).toList := by
  rw [record, keeps, h.passes, Bool.and_assoc, Bool.and_self, log_eq, told]
  by_cases hk : s.isBridged = true ∧ .ofSeverity severity ≤ s.verbosity
  · rw [if_pos hk, if_pos (by simpa [isEnabled] using hk), if_pos ⟨ofSeverity_ne_off severity, hk.2⟩]
  · rw [if_neg hk, if_neg (by simpa [isEnabled] using hk)]
    exact (adding_nil s).symm

/-- All that a step does. -/
theorem step_eq (h : s.InStep) (st : Step) :
    s.step st =
      ⟨st.sets?.getD s.verbosity, (st.sets?.getD s.verbosity).toFilter, s.isBridged || st.isBridge,
        (s.file.map (· ++ (s.told st).toList)).or (newFile (st.sets?.getD s.verbosity))⟩ := by
  have same (entries : List Entry) : s.adding entries = ⟨s.verbosity, s.verbosity.toFilter,
      s.isBridged, (s.file.map (· ++ entries)).or (newFile s.verbosity)⟩ := by
    rw [adding, or_newFile (by simpa using h.isOpen), h.front]
  have empty (v : Verbosity) :
      (s.file.map (· ++ (none : Option Entry).toList)).or (newFile v) = s.file.or (newFile v) := by
    simp
  cases st with
  | setVerbosity v =>
    rw [told, empty, step, setVerbosity_eq, Step.isBridge, Bool.or_false]
    rfl
  | bridge filter =>
    cases filter with
    | none =>
      rw [told, empty, step, bridge, Step.isBridge, Bool.or_true, Step.sets?]
      dsimp only [Option.map_none, Option.getD_none]
      rw [or_newFile h.isOpen]
    | some f =>
      rw [told, empty, step, bridge, Step.isBridge, Bool.or_true, setVerbosity_eq]
      rfl
  | write level category message =>
    rw [Step.isBridge, Bool.or_false]
    exact (log_eq s _ _ _ _).trans (same _)
  | report level category message =>
    rw [Step.isBridge, Bool.or_false]
    exact ((report_eq s _ _ _).trans (log_eq s _ _ _ _)).trans (same _)
  | record severity category message =>
    rw [Step.isBridge, Bool.or_false]
    exact (record_eq h _ _ _).trans (same _)

/-- A message changes nothing but the file. -/
theorem step_of_message (h : s.InStep) (hs : st.sets? = none) (hb : st.isBridge = false) :
    s.step st = s.adding (s.told st).toList := by
  rw [step_eq h, hs, hb, Bool.or_false, Option.getD_none, or_newFile (by simpa using h.isOpen),
    ← h.front, adding]

theorem InStep.step (h : s.InStep) (st : Step) : (s.step st).InStep := by
  rw [step_eq h]
  exact ⟨rfl, isSome_or_newFile _⟩

theorem verbosity_step (h : s.InStep) (st : Step) :
    (s.step st).verbosity = st.sets?.getD s.verbosity := by
  rw [step_eq h]

theorem isBridged_step (h : s.InStep) (st : Step) :
    (s.step st).isBridged = (s.isBridged || st.isBridge) := by
  rw [step_eq h]

theorem file_step_of_open (h : s.InStep) (hf : s.file = some entries) (st : Step) :
    (s.step st).file = some (entries ++ (s.told st).toList) := by
  rw [step_eq h, hf]
  rfl

theorem file_step_of_closed (h : s.InStep) (hf : s.file = none) (st : Step) :
    (s.step st).file = newFile (s.step st).verbosity := by
  rw [step_eq h, hf]
  rfl

/-! ## Runs -/

/-- The log after some steps. -/
def after (s : Sink) (steps : List Step) : Sink := steps.foldl step s

/-- The log of a new process after some steps, if its environment does not say what is logged. -/
def reached (steps : List Step) : Sink := (start none).after steps

/-- The entries that the steps of a run are to leave, in the order of the steps. -/
def tellings (s : Sink) : List Step → List Entry
  | [] => []
  | st :: rest => (s.told st).toList ++ tellings (s.step st) rest

/-- The verbosity that was set last. -/
def lastSet (steps : List Step) : Verbosity := (steps.filterMap Step.sets?).getLast?.getD .off

theorem inStep_start : (start none).InStep := ⟨rfl, fun h => absurd rfl h⟩

theorem InStep.after (h : s.InStep) (steps : List Step) : (s.after steps).InStep := by
  induction steps generalizing s with
  | nil => exact h
  | cons st rest ih => exact ih (h.step st)

theorem after_append (s : Sink) (front back : List Step) :
    s.after (front ++ back) = (s.after front).after back :=
  List.foldl_append

theorem inStep_reached (steps : List Step) : (reached steps).InStep := inStep_start.after steps

/-- The run of a list of steps, followed by one step. -/
theorem reached_append_singleton (steps : List Step) (st : Step) :
    reached (steps ++ [st]) = (reached steps).step st :=
  after_append _ steps [st]

theorem verbosity_reached (steps : List Step) : (reached steps).verbosity = lastSet steps := by
  induction steps using List.reverseRecOn with
  | nil => rfl
  | append_singleton steps st ih =>
    rw [reached_append_singleton, verbosity_step (inStep_reached steps), ih, lastSet, lastSet,
      List.filterMap_append]
    cases h : st.sets? with
    | none => simp [h]
    | some v => simp [h]

theorem isBridged_reached (steps : List Step) :
    (reached steps).isBridged = steps.any Step.isBridge := by
  induction steps using List.reverseRecOn with
  | nil => rfl
  | append_singleton steps st ih =>
    rw [reached_append_singleton, isBridged_step (inStep_reached steps), ih, List.any_append,
      List.any_cons, List.any_nil, Bool.or_false]

/-- An open file grows by what the steps tell. -/
theorem file_after_of_open (h : s.InStep) (hf : s.file = some entries) (steps : List Step) :
    (s.after steps).file = some (entries ++ tellings s steps) := by
  induction steps generalizing s entries with
  | nil => rw [tellings, List.append_nil]; exact hf
  | cons st rest ih =>
    rw [tellings, ← List.append_assoc]
    exact ih (h.step st) (file_step_of_open h hf st)

/-- There is no file as long as nothing is to be kept. -/
theorem file_reached_of_off (off : ∀ front, front <+: steps → (reached front).verbosity = .off) :
    (reached steps).file = none := by
  induction steps using List.reverseRecOn with
  | nil => rfl
  | append_singleton steps st ih =>
    have closed := ih fun front hf => off front (hf.trans (List.prefix_append steps [st]))
    have quiet := off (steps ++ [st]) List.prefix_rfl
    rw [reached_append_singleton] at quiet ⊢
    rw [file_step_of_closed (inStep_reached steps) closed, quiet]
    rfl

theorem file_reached_of_on {front back : List Step}
    (off : ∀ before, before <+: front → (reached before).verbosity = .off)
    (on : (reached (front ++ [st])).verbosity ≠ .off) :
    (reached (front ++ st :: back)).file =
      some (.banner (reached (front ++ [st])).verbosity ::
        tellings (reached (front ++ [st])) back) := by
  have opens : (reached (front ++ [st])).file =
      some [.banner (reached (front ++ [st])).verbosity] := by
    rw [reached_append_singleton] at on ⊢
    rw [file_step_of_closed (inStep_reached front) (file_reached_of_off off), newFile, if_neg on]
  have split : reached (front ++ st :: back) = (reached (front ++ [st])).after back := by
    rw [List.append_cons]
    exact after_append _ _ back
  rw [split, file_after_of_open (inStep_reached _) opens]
  rfl

theorem banner_not_mem_tellings (s : Sink) (steps : List Step) (v : Verbosity) :
    .banner v ∉ tellings s steps := by
  induction steps generalizing s with
  | nil => exact List.not_mem_nil
  | cons st rest ih =>
    rw [tellings, List.mem_append, not_or, Option.mem_toList]
    refine ⟨?_, ih _⟩
    cases st <;> simp [told]

/-- **The log is in step with what it is set to, and its file only grows.** In the log of a new
process, after any steps, the filter in front of the log is the one that the verbosity needs, so that
it lets through exactly the records that are kept; the verbosity is the one that was set last, and
records are let through once a bridge was made. The file is opened by the first step that sets a
verbosity other than `off`, with a banner of that verbosity, and then holds what the steps behind it
tell, in their order. An open file only grows, by what the steps tell, and no second banner is among
that. -/
theorem reached_in_step (steps : List Step) :
    (reached steps).front = (reached steps).verbosity.toFilter ∧
    (∀ severity, (reached steps).front.passes severity =
      (reached steps).isEnabled (.ofSeverity severity)) ∧
    (reached steps).verbosity = lastSet steps ∧
    (reached steps).isBridged = steps.any Step.isBridge ∧
    ((∀ front, front <+: steps → (reached front).verbosity = .off) →
      (reached steps).file = none) ∧
    (∀ front st back, steps = front ++ st :: back →
      (∀ before, before <+: front → (reached before).verbosity = .off) →
      (reached (front ++ [st])).verbosity ≠ .off →
      (reached steps).file = some (.banner (reached (front ++ [st])).verbosity ::
        tellings (reached (front ++ [st])) back)) ∧
    (∀ entries more, (reached steps).file = some entries →
      (reached (steps ++ more)).file = some (entries ++ tellings (reached steps) more)) ∧
    ∀ v more, .banner v ∉ tellings (reached steps) more := by
  have h := inStep_reached steps
  refine ⟨h.front, h.passes, verbosity_reached steps, isBridged_reached steps, file_reached_of_off,
    ?_, ?_, fun v more => banner_not_mem_tellings _ more v⟩
  · rintro front st back rfl off on
    exact file_reached_of_on off on
  · intro entries more hf
    rw [reached, after_append]
    exact file_after_of_open h hf more

/-- An early message, a bridge, and then a record and messages while the verbosity goes off and up
again. -/
def varyingSteps : List Step :=
  [.write .error "app" "early", .bridge (some .warn), .record .warn "app" "kept",
    .setVerbosity .off, .report .error "app" "lost", .setVerbosity .trace]

theorem reached_varyingSteps :
    (∀ before, before <+: [.write .error "app" "early"] → (reached before).verbosity = .off) ∧
    (reached [.write .error "app" "early"]).file = none ∧
    (reached [.write .error "app" "early", .bridge (some .warn)]).verbosity = .error ∧
    (reached varyingSteps).file = some [.banner .error, .message "WARN " "app" "kept"] ∧
    (reached (varyingSteps ++ [.write .trace "app" "late"])).file =
      some [.banner .error, .message "WARN " "app" "kept", .message "TRACE" "app" "late"] := by
  have off : ∀ before, before <+: [.write .error "app" "early"] →
      (reached before).verbosity = .off := by
    intro before hb
    obtain rfl | ⟨_, rfl, ht⟩ := List.prefix_cons_iff.1 hb
    · rfl
    · obtain rfl := List.prefix_nil.1 ht
      rfl
  obtain ⟨-, -, -, -, closed, -⟩ := reached_in_step [.write .error "app" "early"]
  obtain ⟨-, -, -, -, -, opened, grows, -⟩ := reached_in_step varyingSteps
  have file := opened _ _ _ rfl off (by decide)
  exact ⟨off, closed off, rfl, file, grows _ [.write .trace "app" "late"] file⟩

end ReadableTrace.Log.Sink
