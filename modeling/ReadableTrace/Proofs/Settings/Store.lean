import ReadableTrace.Proofs.Files.Tree
import ReadableTrace.Proofs.Settings.Document
import ReadableTrace.Settings.Store

/-!
# Settings that are saved and loaded again

Saving settings writes a document beside the old file and puts it in its place. That succeeds if the
path is `Writable`, and only then (`writable_iff`), whatever the document is, and the document is
what is read at the path afterwards (`read?_of_run_saveSteps`). So settings are loaded as they were
saved (`load_saveAs`), since every document that is written for them is read back.
-/

namespace ReadableTrace.Settings

open Log Files Yaml

variable {s : Settings} {t t' : Tree} {path document : String} {p : Path}
  {write : Settings → String}

/-! ## The file -/

/-- A file can be saved at the path: its text ends with a name, the folders in front of it are there
or can be made, and in the last of them there is room for the file and for the one that is written
first. -/
def Writable (t : Tree) (path : String) : Prop :=
  ∃ front name, Path.ofText? path = some ⟨front ++ [name]⟩ ∧ t.Free front ∧
    t.Room front (Path.nameWithEnding name "yaml.tmp") ∧ t.Room front name

/-- What saving a document comes to. -/
theorem run_saveSteps_iff (hp : p.pieces ≠ []) :
    t.run (saveSteps document p) = (t', true) ↔ ∃ front name made, p = ⟨front ++ [name]⟩ ∧
      t.step? (.makeFolders ⟨front ++ [""]⟩) = some made ∧
      t.Room front (Path.nameWithEnding name "yaml.tmp") ∧ t.Room front name ∧
      t' = made.replace (t.folder front) (Path.nameWithEnding name "yaml.tmp") name document := by
  have steps {front : List String} {name : String} (hv : Path.isVoid name = false) :
      saveSteps document ⟨front ++ [name]⟩ = [.makeFolders ⟨front ++ [""]⟩,
        .write ⟨front ++ [Path.nameWithEnding name "yaml.tmp"]⟩ document,
        .rename ⟨front ++ [Path.nameWithEnding name "yaml.tmp"]⟩ ⟨front ++ [name]⟩] := by
    simp only [saveSteps, temporary, Path.withEnding_append_singleton hv,
      Path.parent?_append_singleton hv, List.singleton_append]
  constructor
  · intro h
    have closed : p.endsOpen = false := by
      rw [saveSteps, ← List.singleton_append, ← List.append_assoc] at h
      exact Tree.endsOpen_of_run h
    obtain ⟨pieces⟩ := p
    obtain ⟨front, name, rfl, hv⟩ := Path.exists_last hp closed
    rw [steps hv] at h
    obtain ⟨made, hm, h⟩ := Tree.run_cons_iff.1 h
    obtain ⟨first, room, ht⟩ := (Tree.run_replace_iff (Tree.made_of_step? hm)).1 h
    exact ⟨front, name, made, rfl, hm, first, room, ht⟩
  · rintro ⟨front, name, made, rfl, hm, first, room, ht⟩
    rw [steps room.isNamed]
    exact Tree.run_cons_iff.2
      ⟨made, hm, (Tree.run_replace_iff (Tree.made_of_step? hm)).2 ⟨first, room, ht⟩⟩

/-- A document can be saved at writable paths, and only there. -/
theorem writable_iff (document : String) : Writable t path ↔
    ∃ p t', Path.ofText? path = some p ∧ t.run (saveSteps document p) = (t', true) := by
  constructor
  · rintro ⟨front, name, hp, free, first, room⟩
    obtain ⟨made, hm⟩ := Option.isSome_iff_exists.1
      (Tree.step?_makeFolders_isSome_iff.2 ⟨Path.fits_parent room.fits, free⟩)
    exact ⟨_, _, hp, (run_saveSteps_iff (Path.pieces_ne_nil hp)).2
      ⟨front, name, made, rfl, hm, first, room, rfl⟩⟩
  · rintro ⟨p, t', hp, hr⟩
    obtain ⟨front, name, made, rfl, hm, first, room, -⟩ :=
      (run_saveSteps_iff (Path.pieces_ne_nil hp)).1 hr
    have free := Tree.step?_makeFolders_isSome_iff.1 (Option.isSome_of_eq_some hm)
    exact ⟨front, name, hp, free.2, first, room⟩

/-- A document that was saved is read. -/
theorem read?_of_run_saveSteps (hp : Path.ofText? path = some p)
    (h : t.run (saveSteps document p) = (t', true)) : t'.read? path = some document := by
  obtain ⟨front, name, made, rfl, hm, -, room, rfl⟩ :=
    (run_saveSteps_iff (Path.pieces_ne_nil hp)).1 h
  exact Tree.read?_replace (Tree.made_of_step? hm) room hp _ _

/-! ## The settings -/

theorem saveAs_of_writable (write : Settings → String) (hs : s.flaw? = none)
    (h : Writable t path) : ∃ t', saveAs write s t path = (t', Logged.note (.settingsSaved path)) ∧
      t'.read? path = some (write s) := by
  obtain ⟨p, t', hp, hr⟩ := (writable_iff (write s)).1 h
  exact ⟨t', by simp only [saveAs, hs, hp, hr], read?_of_run_saveSteps hp hr⟩

theorem saveAs_of_not_writable (write : Settings → String) (hs : s.flaw? = none)
    (h : ¬ Writable t path) : ∃ t', saveAs write s t path = (t', Logged.fail .unwritable) := by
  rw [saveAs, hs]
  cases hp : Path.ofText? path with
  | none => exact ⟨t, rfl⟩
  | some p =>
    rcases hr : t.run (saveSteps (write s) p) with ⟨t', saved⟩
    cases saved with
    | true => exact absurd ((writable_iff (write s)).2 ⟨p, t', hp, hr⟩) h
    | false => exact ⟨t', by simp only [hr]⟩

theorem outcome_load_of_read? (h : t.read? path = some document) :
    (load t path).outcome = ofText document := by
  rw [load, h]
  rfl

/-- **Settings survive saving and loading.** Settings without a flaw can be saved at every writable
path and only there, and then they are what is loaded from it, whichever of the ways to write a text
the printer takes. -/
theorem load_saveAs (hw : ∀ s, Written s (write s)) (hs : s.flaw? = none) :
    ((saveAs write s t path).2.outcome = .ok () ↔ Writable t path) ∧
      (Writable t path → (load (saveAs write s t path).1 path).outcome = .ok s) := by
  by_cases h : Writable t path
  · obtain ⟨t', he, hr⟩ := saveAs_of_writable write hs h
    rw [he]
    refine ⟨iff_of_true rfl h, fun _ => ?_⟩
    rw [outcome_load_of_read? hr, ofText_of_written (hw s) hs]
  · obtain ⟨t', he⟩ := saveAs_of_not_writable write hs h
    rw [he]
    exact ⟨iff_of_false nofun h, fun hp => absurd hp h⟩

/-- The usual settings with everything logged and no locations. -/
def traced : Settings := { standard with showLocation := false, logFilter := .trace }

/-- A printer that writes these settings with single quotes, a block and plain texts. -/
def writeTraced (s : Settings) : String :=
  if s = traced then
    "frame_prefix: '   at '\n" ++ "line_separator: |2+\n\n" ++ "include_line_info: false\n" ++
      "show_hidden_frames: false\n" ++ "system_namespace_prefix: System.\n" ++
      "log_level: trace\n"
  else s.document

theorem written_writeTraced (s : Settings) : Written s (writeTraced s) := by
  by_cases h : s = traced
  · subst h
    have lead : Spelled .quoted "   at ".toList " '   at '\n".toList :=
      .single (singleSpelled_self (by simp [isBreak]))
    have separator : Spelled .literal "\n".toList " |2+\n\n".toList :=
      .block (@BlockSpelled.mk [] _ .keep ['\n'] ['\n'] 2 (by simp) (fun _ => rfl)
        (.digit (by decide) (by decide)) (.keep (by simp [isBreak])))
    refine ⟨[line "frame_prefix" .quoted "   at " "'   at '".toList,
      line "line_separator" .literal "\n" "|2+\n".toList,
      line "include_line_info" .plain "false" "false".toList,
      line "show_hidden_frames" .plain "false" "false".toList,
      line "system_namespace_prefix" .plain "System." "System.".toList,
      line "log_level" .plain "trace" "trace".toList], ?_, ?_, ?_, ?_, ?_⟩
    · simp [line, texts, traced, standard, flag, Log.Filter.word]
    · simp only [List.forall_mem_cons]
      exact ⟨lead, separator, .plain ⟨by decide, by decide⟩, .plain ⟨by decide, by decide⟩,
        .plain ⟨by decide, by decide⟩, .plain ⟨by decide, by decide⟩, List.forall_mem_nil _⟩
    · simp [line, flagKeys]
    · simp [-String.reduceAppend, writeTraced, line, Entry.chars]
    · simp [-String.reduceAppend, writeTraced, isAllowed]
  · rw [writeTraced, if_neg h]
    exact written_document s

/-- These settings are saved in a folder that is not there yet. -/
theorem load_saveAs_traced : traced.flaw? = none ∧
    Writable (.empty ["home", "user"]) "nested/config.yaml" ∧
    (saveAs writeTraced traced (.empty ["home", "user"]) "nested/config.yaml").2.outcome = .ok () ∧
    (load (saveAs writeTraced traced (.empty ["home", "user"]) "nested/config.yaml").1
      "nested/config.yaml").outcome = .ok traced := by
  have writable : Writable (.empty ["home", "user"]) "nested/config.yaml" := by
    refine ⟨["nested"], "config.yaml", by decide, ⟨by decide, by decide⟩, ?_, ?_⟩
    · exact ⟨by decide, by decide, by decide, by decide, by decide, by decide⟩
    · exact ⟨by decide, by decide, by decide, by decide, by decide, by decide⟩
  obtain ⟨saved, loaded⟩ := load_saveAs written_writeTraced (s := traced) (by decide)
  exact ⟨by decide, writable, saved.2 writable, loaded writable⟩

end ReadableTrace.Settings
