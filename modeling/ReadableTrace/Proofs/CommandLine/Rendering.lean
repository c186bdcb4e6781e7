import ReadableTrace.Proofs.Trace.Verbosity

/-!
# What a call to show a trace does

A call loads the settings, loads the snapshot and makes the trace, and fails at the first of these
that fails (`run_render_eq_pipeline`). Between the first two the settings decide what is logged,
unless the call or the environment has done so before; what is reported to the log changes nothing
of that (`Sink.verbosity_noteAll`).
-/

namespace ReadableTrace

open Log Files Outcome

/-! ## What reports leave alone -/

namespace Log.Sink

theorem verbosity_log (s : Sink) (level : Verbosity) (label category message : String) :
    (s.log level label category message).verbosity = s.verbosity := by
  rw [log]
  split <;> rfl

theorem verbosity_step_stepOf (s : Sink) (e : Event) :
    (s.step (stepOf e)).verbosity = s.verbosity := by
  obtain ⟨he, -⟩ | he := stepOf_cases e
  · rw [he, step, report]
    split
    · exact verbosity_log s _ _ _ _
    · rfl
  · rw [he, step, record]
    split
    · exact verbosity_log s _ _ _ _
    · rfl

/-- Reports do not change what is logged. -/
theorem verbosity_noteAll (s : Sink) (events : List Event) :
    (s.noteAll events).verbosity = s.verbosity := by
  induction events generalizing s with
  | nil => rfl
  | cons e events ih => exact (ih (s.step (stepOf e))).trans (verbosity_step_stepOf s e)

theorem verbosity_setVerbosity (s : Sink) (v : Verbosity) : (s.setVerbosity v).verbosity = v := by
  rw [setVerbosity_eq]

theorem verbosity_bridge (s : Sink) (filter : Option Filter) :
    (s.bridge filter).verbosity = (filter.map .ofFilter).getD s.verbosity := by
  cases filter with
  | none => rfl
  | some f => rw [bridge_eq]; rfl

theorem verbosity_start (levelText : Option String) :
    (start levelText).verbosity = (levelText.map .ofText).getD .off := by
  rw [start]
  cases (levelText.map Verbosity.ofText).getD .off <;> rfl

end Log.Sink

namespace CommandLine

/-! ## Settings -/

/-- The settings in a file. -/
def settingsIn (files : Tree) (path : String) : Except Settings.Fault Settings :=
  match files.read? path with
  | none => .error .unreadable
  | some text => Settings.ofText text

/-- The settings that a call uses: those in the file that it names. If it names none, those at the
usual place, and if there is nothing either, the usual settings. -/
def settingsAt (env : Environment) : Option String → Except Settings.Fault Settings
  | some path => settingsIn env.files path
  | none =>
    if env.files.has (Settings.usualPath env.home) then
      settingsIn env.files (Settings.usualPath env.home)
    else .ok .standard

theorem outcome_load (files : Tree) (path : String) :
    (Settings.load files path).outcome = settingsIn files path := by
  rw [Settings.load, settingsIn, Logged.outcome_bind, Logged.outcome_note, ok_bind]
  cases files.read? path <;> rfl

theorem outcome_settingsFor (env : Environment) (path : Option String) :
    (settingsFor env path).outcome = settingsAt env path := by
  have noted (x : Logged Settings.Fault Settings) :
      (x >>= fun s => Logged.note (.settingsUsed s) >>= fun _ => pure s).outcome = x.outcome := by
    rw [Logged.outcome_bind]
    cases x.outcome <;> rfl
  cases path with
  | some path => exact (noted _).trans (outcome_load env.files path)
  | none =>
    refine (noted _).trans ?_
    rw [Settings.loadUsual, Logged.outcome_bind, Logged.outcome_note, ok_bind, settingsAt]
    split
    · exact outcome_load env.files _
    · rfl

/-! ## Traces -/

theorem outcome_renderFile (files : Tree) (path : String) (s : Settings) :
    (renderFile files path s).outcome = (do
      let snapshot ← (Snapshot.load files path).outcome.mapError .snapshot
      let trace ← ((Renderer.ofSettings s).render snapshot.catalog snapshot.frames).outcome.mapError
        (.trace path)
      pure trace.text) := by
  rw [renderFile, Logged.outcome_bind]
  refine bind_congr_of_ok fun snapshot _ => ?_
  rw [Logged.outcome_bind]
  refine bind_congr_of_ok fun trace _ => ?_
  rw [Logged.outcome_bind, Logged.outcome_note, ok_bind, Logged.outcome_pure]
  rfl

/-! ## The log -/

/-- What is logged in the end: what the call says, or else the environment, or else the settings, if
they were loaded. -/
def finalVerbosity (env : Environment) (level : Option Filter) (settings : Option Settings) :
    Verbosity :=
  match level, env.levelText, settings with
  | some filter, _, _ => .ofFilter filter
  | none, some text, _ => .ofText text
  | none, none, some s => .ofFilter s.logFilter
  | none, none, none => .off

/-- Until the settings are known, what is logged is as if there were none. -/
theorem verbosity_bridge_start (env : Environment) (level : Option Filter) :
    ((Sink.start env.levelText).bridge level).verbosity = finalVerbosity env level none := by
  rw [Sink.verbosity_bridge, Sink.verbosity_start]
  unfold finalVerbosity
  cases level <;> cases env.levelText <;> rfl

/-- The settings say what is logged if nothing else has said so. -/
theorem verbosity_sinkFor {env : Environment} {cl : CommandLine} {s : Settings} {sink : Sink}
    (h : sink.verbosity = finalVerbosity env cl.logFilter none) :
    (sinkFor env cl s sink).verbosity = finalVerbosity env cl.logFilter (some s) := by
  rw [sinkFor]
  unfold finalVerbosity at h ⊢
  cases hl : cl.logFilter with
  | some f => rw [hl] at h; exact h
  | none =>
    cases ht : env.levelText with
    | some text => rw [hl, ht] at h; exact h
    | none =>
      rw [hl, ht] at h
      dsimp only [Option.isNone, Bool.and_self, if_true]
      cases hv : Verbosity.ofFilter s.logFilter with
      | off => exact h
      | _ => exact Sink.verbosity_setVerbosity _ _

/-! ## Calls -/

section Calls

variable {env : Environment} {level : Option Filter} {settings : Option String}
  {showHidden hideLocation : Bool}

/-- Without settings the call ends before the file of the snapshot is looked at. -/
theorem run_render_of_error {fault : Settings.Fault} (h : settingsAt env settings = .error fault)
    (path : String) (sink : Sink) :
    CommandLine.run env ⟨level, .render path settings showHidden hideLocation⟩ sink =
      (.error (.settings fault), (sink.bridge level).noteAll (settingsFor env settings).events) := by
  have outcome := (outcome_settingsFor env settings).trans h
  simp only [run, outcome]

/-- With settings the call shows what is in the file. -/
theorem run_render_of_ok {s : Settings} (h : settingsAt env settings = .ok s) (path : String)
    (sink : Sink) :
    CommandLine.run env ⟨level, .render path settings showHidden hideLocation⟩ sink =
      ((renderFile env.files path (withFlags s showHidden hideLocation)).outcome,
        (sinkFor env ⟨level, .render path settings showHidden hideLocation⟩ s
          ((sink.bridge level).noteAll (settingsFor env settings).events)).noteAll
            (renderFile env.files path (withFlags s showHidden hideLocation)).events) := by
  have outcome := (outcome_settingsFor env settings).trans h
  simp only [run, outcome]

end Calls

/-- **A call shows the trace that the library makes.** In a new process, a call to show the trace in
a file loads the settings, loads the snapshot, and makes its trace with the settings, where the flags
of the call can only turn hidden routines on and places off; the result is that of the first step
that fails, or else the text of the trace. If the settings cannot be had then nothing at all depends
on the file of the snapshot. What is logged in the end does not depend on whether the steps behind
the settings fail. -/
theorem run_render_eq_pipeline (env : Environment) (level : Option Filter) (path : String)
    (settings : Option String) (showHidden hideLocation : Bool) :
    let cl : CommandLine := ⟨level, .render path settings showHidden hideLocation⟩
    (cl.run env (.start env.levelText)).1 = (do
      let s ← (settingsAt env settings).mapError .settings
      let snapshot ← (Snapshot.load env.files path).outcome.mapError .snapshot
      let renderer := Renderer.ofSettings
        { s with
          showHidden := s.showHidden || showHidden
          showLocation := s.showLocation && !hideLocation }
      let trace ← (renderer.render snapshot.catalog snapshot.frames).outcome.mapError (.trace path)
      pure trace.text) ∧
    (∀ fault other, settingsAt env settings = .error fault →
      CommandLine.run env ⟨level, .render other settings showHidden hideLocation⟩
          (.start env.levelText) =
        cl.run env (.start env.levelText)) ∧
    (∀ fault, (Failure.trace path fault).message =
      "failed to render " ++ path ++ ": " ++ fault.message) ∧
    (cl.run env (.start env.levelText)).2.verbosity =
      finalVerbosity env level (settingsAt env settings).toOption := by
  intro cl
  cases loaded : settingsAt env settings with
  | error fault =>
    refine ⟨?_, fun _ other _ => ?_, fun _ => rfl, ?_⟩
    · rw [run_render_of_error loaded]
      rfl
    · rw [run_render_of_error loaded, run_render_of_error loaded]
    · rw [run_render_of_error loaded, Sink.verbosity_noteAll, verbosity_bridge_start]
      rfl
  | ok s =>
    refine ⟨?_, nofun, fun _ => rfl, ?_⟩
    · rw [run_render_of_ok loaded, outcome_renderFile]
      rfl
    · rw [run_render_of_ok loaded, Sink.verbosity_noteAll]
      refine verbosity_sinkFor ?_
      exact (Sink.verbosity_noteAll _ _).trans (verbosity_bridge_start env level)

/-- A call in front of a file that holds a trace, where the settings file that it names is
missing. -/
theorem run_render_absentSettings :
    settingsAt ⟨Renderer.constructorFile, none, some "3"⟩ (some "absent.yaml") =
      .error .unreadable ∧
    (CommandLine.run ⟨Renderer.constructorFile, none, some "3"⟩
      ⟨none, .render "trace.json" (some "absent.yaml") true false⟩ (.start (some "3"))).1 =
        .error (.settings .unreadable) ∧
    CommandLine.run ⟨Renderer.constructorFile, none, some "3"⟩
        ⟨none, .render "elsewhere.json" (some "absent.yaml") true false⟩ (.start (some "3")) =
      CommandLine.run ⟨Renderer.constructorFile, none, some "3"⟩
        ⟨none, .render "trace.json" (some "absent.yaml") true false⟩ (.start (some "3")) ∧
    (CommandLine.run ⟨Renderer.constructorFile, none, some "3"⟩
      ⟨none, .render "trace.json" (some "absent.yaml") true false⟩
        (.start (some "3"))).2.verbosity = .debug := by
  have absent : settingsAt ⟨Renderer.constructorFile, none, some "3"⟩ (some "absent.yaml") =
      .error .unreadable := rfl
  obtain ⟨result, same, -, level⟩ := run_render_eq_pipeline
    ⟨Renderer.constructorFile, none, some "3"⟩ none "trace.json" (some "absent.yaml") true false
  exact ⟨absent, result, same _ "elsewhere.json" absent, level.trans (by decide)⟩

end CommandLine

end ReadableTrace
