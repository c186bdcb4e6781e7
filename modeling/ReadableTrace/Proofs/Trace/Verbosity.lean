import ReadableTrace.CommandLine.Run
import ReadableTrace.Proofs.Log.Events
import ReadableTrace.Proofs.Snapshot.RoundTrip
import ReadableTrace.Proofs.Trace.Shown

/-!
# Traces at different verbosities

In a session, a filter is set, a snapshot is loaded and its trace is made (`Renderer.session`). The
result is that of the same work without a log (`session_eq`), and what is logged are the events
that the verbosity of the filter keeps (`file_session`). So a stronger filter only adds entries, and
those that a weaker one keeps can be told by their labels (`filter_isKept`).
-/

namespace ReadableTrace

open Log Files

/-! ## Sessions -/

namespace Renderer

open CommandLine (Failure)

/-- A filter is set, a snapshot is loaded from a file, and its trace is made. Each reports to the log
as the one before has left it. -/
def session (r : Renderer) (files : Tree) (path : String) (filter : Filter) (s : Sink) :
    Except Failure Trace × Sink :=
  let s := s.bridge (some filter)
  let loaded := Snapshot.load files path
  let s := s.noteAll loaded.events
  match loaded.outcome with
  | .error fault => (.error (.snapshot fault), s)
  | .ok snapshot =>
    let shown := r.render snapshot.catalog snapshot.frames
    (shown.outcome.mapError (.trace path), s.noteAll shown.events)

/-- Loads a snapshot from a file and makes its trace. -/
def showFile (r : Renderer) (files : Tree) (path : String) : Logged Failure Trace := do
  let snapshot ← (Snapshot.load files path).mapError .snapshot
  (r.render snapshot.catalog snapshot.frames).mapError (.trace path)

variable {f g : Filter}

theorem session_eq_noteAll (r : Renderer) (files : Tree) (path : String) (f : Filter) (s : Sink) :
    r.session files path f s =
      ((r.showFile files path).outcome,
        (s.bridge (some f)).noteAll (r.showFile files path).events) := by
  rw [session, showFile]
  cases h : (Snapshot.load files path).outcome with
  | error fault =>
    have failed : ((Snapshot.load files path).mapError Failure.snapshot).outcome =
        .error (.snapshot fault) := by rw [Logged.mapError, h]; rfl
    rw [Logged.outcome_bind, failed, Logged.events_bind_of_error failed]
    rfl
  | ok snapshot =>
    have loaded : ((Snapshot.load files path).mapError Failure.snapshot).outcome =
        .ok snapshot := by rw [Logged.mapError, h]; rfl
    rw [Logged.outcome_bind, loaded, Logged.events_bind_of_ok loaded, Sink.noteAll_append]
    rfl

/-- The result of a session does not depend on the filter, and its entries are those of the events
that are kept. -/
theorem session_eq (r : Renderer) (files : Tree) (path : String) (f : Filter) (s : Sink) :
    r.session files path f s =
      ((r.showFile files path).outcome,
        (s.bridge (some f)).adding (((r.showFile files path).events.filter
          ((Verbosity.ofFilter f).keeps ·.severity)).map .ofEvent)) := by
  have h := Sink.noteAll_eq (s.inStep_bridge f) rfl (r.showFile files path).events
  rw [session_eq_noteAll, h, Sink.bridge_eq]

/-- The entries of a session are behind those that were there before and the banner. -/
theorem file_session (r : Renderer) (files : Tree) (path : String) (f : Filter) (s : Sink) :
    (r.session files path f s).2.file.getD [] =
      (s.file.or (Sink.newFile (.ofFilter f))).getD [] ++
        ((r.showFile files path).events.filter
          ((Verbosity.ofFilter f).keeps ·.severity)).map .ofEvent := by
  have h := (s.inStep_bridge f).isOpen
  rw [Sink.bridge_eq] at h
  rw [session_eq, Sink.bridge_eq, Sink.adding]
  cases hf : s.file.or (Sink.newFile (.ofFilter f)) with
  | some entries => rfl
  | none =>
    -- there is no file, so nothing is kept
    have off : Verbosity.ofFilter f = .off := by
      by_contra hv
      rw [hf] at h
      cases h hv
    rw [off, List.filter_eq_nil_iff.2 fun e _ => by
      rw [Verbosity.not_keeps_off]
      exact Bool.false_ne_true]
    rfl

/-- Of the entries that a stronger filter keeps, those that the weaker one keeps can be told by
their labels. -/
theorem filter_isKept (h : f.rank ≤ g.rank) (events : List Event) :
    ((events.filter ((Verbosity.ofFilter g).keeps ·.severity)).map Entry.ofEvent).filter
        (·.isKept (.ofFilter f)) =
      (events.filter ((Verbosity.ofFilter f).keeps ·.severity)).map .ofEvent := by
  rw [List.filter_map, List.filter_filter]
  congr 1
  apply List.filter_congr
  intro e _
  rw [Function.comp_apply, Entry.isKept_ofEvent, Bool.and_eq_left_iff_imp]
  exact Verbosity.keeps_of_le (Verbosity.ofFilter_mono h)

/-- **The log does not change the answer, and a stronger filter only adds to it.** Two sessions with
the same renderer and file have the same result, whatever the filters and whatever was logged
before. Behind what was there before and the banner, the session with the weaker filter has exactly
the entries of the other one that its verbosity keeps, in the same order; and those are the entries
of the events that the verbosity of the stronger filter keeps. -/
theorem session_of_le (r : Renderer) (files : Tree) (path : String) (s s' : Sink)
    (h : f.rank ≤ g.rank) :
    (r.session files path f s).1 = (r.session files path g s').1 ∧
    ∃ less more,
      (r.session files path f s).2.file.getD [] =
        (s.file.or (Sink.newFile (.ofFilter f))).getD [] ++ less ∧
      (r.session files path g s').2.file.getD [] =
        (s'.file.or (Sink.newFile (.ofFilter g))).getD [] ++ more ∧
      less = more.filter (·.isKept (.ofFilter f)) ∧
      more = ((r.showFile files path).events.filter
        ((Verbosity.ofFilter g).keeps ·.severity)).map .ofEvent := by
  refine ⟨by rw [session_eq, session_eq], _, _, file_session r files path f s,
    file_session r files path g s', ?_, rfl⟩
  exact (filter_isKept h _).symm

/-! ## A frame that no style claims -/

/-- A renderer without styles. -/
def styleless : Renderer := { standard with styles := [] }

/-- A tree with a single file. -/
def singleFile (text : String) : Tree := ⟨[], [], [(["trace.json"], text)]⟩

theorem load_singleFile (snapshot : Snapshot) :
    Snapshot.load (singleFile snapshot.pretty) "trace.json" =
      ⟨.ok snapshot, [.snapshotLoaded "trace.json" snapshot.catalog.types.size
        snapshot.catalog.routines.size snapshot.frames.length]⟩ := by
  have read (text : String) : (singleFile text).read? "trace.json" = some text := rfl
  have parsed : Snapshot.ofText? snapshot.pretty = some snapshot := by
    rw [Snapshot.ofText?, Snapshot.pretty,
      Json.ofText?_pretty_of_isPlain (Snapshot.isPlain_toJson _), Option.bind_some,
      Snapshot.ofJson?_toJson]
  rw [Snapshot.load, read]
  dsimp only
  rw [parsed]
  rfl

/-- A file with a snapshot of one frame. -/
def constructorFile : Tree := singleFile (Snapshot.pretty ⟨guardedCatalog, [.ofRoutine ⟨0⟩]⟩)

theorem showFile_constructorFile :
    styleless.showFile constructorFile "trace.json" =
      ⟨.error (.trace "trace.json" (.unclaimed ".ctor")),
        [.snapshotLoaded "trace.json" 1 2 1, .unclaimed ⟨0⟩ ".ctor"]⟩ := by
  rw [showFile, constructorFile, load_singleFile]
  rfl

theorem session_constructorFile :
    Filter.warn.rank ≤ Filter.debug.rank ∧
    (styleless.session constructorFile "trace.json" .warn (.start none)).1 =
      (styleless.session constructorFile "trace.json" .debug (.start none)).1 ∧
    (styleless.session constructorFile "trace.json" .warn (.start none)).2.file.getD [] =
      [.banner .error, .ofEvent (.unclaimed ⟨0⟩ ".ctor")] ∧
    (styleless.session constructorFile "trace.json" .debug (.start none)).2.file.getD [] =
      [.banner .debug, .ofEvent (.snapshotLoaded "trace.json" 1 2 1),
        .ofEvent (.unclaimed ⟨0⟩ ".ctor")] := by
  have h : Filter.warn.rank ≤ Filter.debug.rank := by decide
  obtain ⟨same, less, more, hl, hm, sub, all⟩ :=
    session_of_le styleless constructorFile "trace.json" (.start none) (.start none) h
  rw [showFile_constructorFile] at all
  have all : more = [.ofEvent (.snapshotLoaded "trace.json" 1 2 1),
    .ofEvent (.unclaimed ⟨0⟩ ".ctor")] := all
  subst all
  refine ⟨h, same, hl.trans ?_, hm.trans ?_⟩
  · rw [sub, List.filter_cons_of_neg, List.filter_cons_of_pos, List.filter_nil]
    · rfl
    · rw [Entry.isKept_ofEvent]
      rfl
    · rw [Entry.isKept_ofEvent]
      exact nofun
  · rfl

end Renderer

end ReadableTrace
