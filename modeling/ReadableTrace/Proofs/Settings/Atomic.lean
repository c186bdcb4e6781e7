import ReadableTrace.Proofs.Files.Interruption
import ReadableTrace.Proofs.Settings.Store

/-!
# Settings that are saved whole or not at all

Saving settings writes a document under another name and renames it when it is complete. Until then
the file at the path is spared (`Untouched`), because the other name leads to another place
(`writable?_temporary_ne`). Afterwards the document is there and nothing is left of the file that
was written first (`Replaced`). So in between, and wherever saving is cut off, the path has the old
file or the new one (`saveAs_atomic`).
-/

namespace ReadableTrace.Settings

open Log Files

/-- A tree that saving settings can leave when it fails or is cut off. -/
inductive Unfinished (write : Settings → String) (s : Settings) (t : Tree) (path : String) :
    Tree → Prop
  | unbegun : Unfinished write s t path t
  | partway {p t'} : s.flaw? = none → Path.ofText? path = some p →
    t.Partway (saveSteps (write s) p) t' → Unfinished write s t path t'

/-- No file is another than before, but perhaps the one that is written first. -/
structure Untouched (t t' : Tree) (path : String) (p : Path) : Prop where
  file : t'.file? (t.lands p) = t.file? (t.lands p)
  others : ∀ q, q ≠ t.lands (temporary p) → t'.file? q = t.file? q
  /-- What could be read at the path is still read. -/
  read : ∀ old, t.read? path = some old → t'.read? path = some old
  /-- Nothing else is read there. -/
  only : ∀ text, t'.read? path = some text → t.file? (t.lands p) = some text

/-- The document is read at the path, the file that was written first is gone, and all other files
are as before. -/
structure Replaced (t t' : Tree) (path : String) (p : Path) (document : String) : Prop where
  read : t'.read? path = some document
  noFile : t'.file? (t.lands (temporary p)) = none
  noFolder : t'.isFolder (t.lands (temporary p)) = false
  others : ∀ q, q ≠ t.lands p → q ≠ t.lands (temporary p) → t'.file? q = t.file? q

variable {s : Settings} {t t' : Tree} {path document : String} {p : Path} {q : Place}
  {write : Settings → String}

theorem writable?_temporary_ne : t.writable? (temporary p) ≠ some (t.lands p) :=
  @Tree.writable?_withEnding_ne t p "yaml" "tmp" (by decide)

/-! ## Before the document is complete -/

/-- A place is spared up to the last step if the file that is written first is at another. -/
theorem keeps_of_partway (hq : ∀ u : Tree, u.here = t.here → u.writable? (temporary p) ≠ some q)
    (h : t.Partway (saveSteps document p) t') : Tree.Keeps q t t' := by
  rw [saveSteps, ← List.singleton_append, ← List.append_assoc] at h
  refine Tree.keeps_of_partway h fun s hs => ?_
  rcases List.mem_append.1 hs with hs | hs
  · cases hf : p.parent? with
    | none => simp [hf] at hs
    | some folder =>
      rw [hf] at hs
      obtain rfl := List.mem_singleton.1 hs
      exact trivial
  · obtain rfl := List.mem_singleton.1 hs
    exact hq

theorem untouched_of_partway (hp : Path.ofText? path = some p)
    (h : t.Partway (saveSteps document p) t') : Untouched t t' path p := by
  have kept : Tree.Keeps (t.lands p) t t' :=
    keeps_of_partway (fun u hu => Tree.lands_congr hu p ▸ writable?_temporary_ne) h
  refine ⟨kept.file, fun q hq => ?_, fun _ => kept.read? hp, fun _ => kept.file?_of_read? hp⟩
  refine (keeps_of_partway (fun u hu hw => hq ?_) h).file
  rw [Tree.eq_lands_of_writable? hw, Tree.lands_congr hu]

theorem untouched_self (hp : Path.ofText? path = some p) : Untouched t t path p :=
  ⟨rfl, fun _ _ => rfl, fun _ => id, fun _ => (Tree.Keeps.refl _ t).file?_of_read? hp⟩

/-! ## When it is complete -/

theorem replaced_of_run (hp : Path.ofText? path = some p)
    (h : t.run (saveSteps document p) = (t', true)) : Replaced t t' path p document := by
  have read := read?_of_run_saveSteps hp h
  obtain ⟨front, name, made, rfl, hm, first, room, rfl⟩ :=
    (run_saveSteps_iff (Path.pieces_ne_nil hp)).1 h
  have other : Path.nameWithEnding name "yaml.tmp" ≠ name :=
    @Path.nameWithEnding_ne name "yaml" "tmp" (by decide) first.notOut
  have kept (q : Place) : made.file? q = t.file? q := by
    have spared : Tree.Spares t.here q (.makeFolders ⟨front ++ [""]⟩) := trivial
    exact (spared.keeps (spared.leaves hm)).file
  obtain ⟨-, notFolder⟩ := (Tree.made_of_step? hm).resolve?_of_room first
  have source : t.lands (temporary ⟨front ++ [name]⟩) =
      t.folder front ++ [Path.nameWithEnding name "yaml.tmp"] := by
    rw [temporary, Path.withEnding_append_singleton room.isNamed, Tree.lands_of_room first]
  refine ⟨read, ?_, ?_, fun q hq hq' => ?_⟩
  · rw [source]
    exact Tree.file?_replace_source other
  · rw [source]
    exact Tree.isFolder_replace_source notFolder
  · rw [source] at hq'
    rw [Tree.lands_of_room room] at hq
    rw [Tree.file?_replace_of_ne hq' hq, kept]

/-! ## Saving -/

/-- The ends that saving can come to: the settings have a flaw, the text is not that of a path, a
step fails, or all of them are done. -/
theorem saveAs_cases (write : Settings → String) (s : Settings) (t : Tree) (path : String) :
    (∃ flaw, s.flaw? = some flaw ∧ saveAs write s t path = (t, Logged.fail (.flawed flaw))) ∨
    (Path.ofText? path = none ∧ saveAs write s t path = (t, Logged.fail .unwritable)) ∨
    ∃ p t', s.flaw? = none ∧ Path.ofText? path = some p ∧
      (t.run (saveSteps (write s) p) = (t', false) ∧
          saveAs write s t path = (t', Logged.fail .unwritable) ∨
        t.run (saveSteps (write s) p) = (t', true) ∧
          saveAs write s t path = (t', Logged.note (.settingsSaved path))) := by
  cases hs : s.flaw? with
  | some flaw => exact .inl ⟨flaw, rfl, by rw [saveAs, hs]⟩
  | none =>
    cases hp : Path.ofText? path with
    | none => exact .inr (.inl ⟨rfl, by simp only [saveAs, hs, hp]⟩)
    | some p =>
      obtain ⟨t', done, hr⟩ : ∃ t' done, t.run (saveSteps (write s) p) = (t', done) := ⟨_, _, rfl⟩
      refine .inr (.inr ⟨p, t', rfl, rfl, ?_⟩)
      cases done with
      | false => exact .inl ⟨hr, by simp only [saveAs, hs, hp, hr]⟩
      | true => exact .inr ⟨hr, by simp only [saveAs, hs, hp, hr]⟩

/-- **Settings are saved whole or not at all.** Settings with a flaw are refused with it, before
anything is done. Otherwise, wherever saving fails or is cut off, the file at the path is the old
one, and no other has changed but the one that is written first. When saving succeeds, the document
is at the path, the file that was written first is gone, and all other files are as before. -/
theorem saveAs_atomic (write : Settings → String) (s : Settings) (t : Tree) (path : String) :
    (∀ flaw, s.flaw? = some flaw → saveAs write s t path = (t, Logged.fail (.flawed flaw)) ∧
      ∀ t', Unfinished write s t path t' → t' = t) ∧
    (∀ e, (saveAs write s t path).2.outcome = .error e →
      Unfinished write s t path (saveAs write s t path).1) ∧
    (∀ p t', Path.ofText? path = some p → Unfinished write s t path t' →
      Untouched t t' path p) ∧
    ((saveAs write s t path).2.outcome = .ok () → ∃ p, Path.ofText? path = some p ∧
      Replaced t (saveAs write s t path).1 path p (write s)) := by
  refine ⟨fun flaw hs => ⟨by rw [saveAs, hs], ?_⟩, fun e failed => ?_, ?_, fun saved => ?_⟩
  · rintro _ (_ | ⟨hn, -, -⟩)
    · rfl
    · cases hs.symm.trans hn
  · rcases saveAs_cases write s t path with
      ⟨_, -, he⟩ | ⟨-, he⟩ | ⟨p, t', hs, hp, ⟨hr, he⟩ | ⟨-, he⟩⟩
    · exact he ▸ .unbegun
    · exact he ▸ .unbegun
    · exact he ▸ .partway hs hp (Tree.partway_of_run hr)
    · rw [he] at failed
      cases failed
  · rintro p _ hp (_ | ⟨-, hp', h⟩)
    · exact untouched_self hp
    · obtain rfl := Option.some.inj (hp.symm.trans hp')
      exact untouched_of_partway hp h
  · rcases saveAs_cases write s t path with
      ⟨_, -, he⟩ | ⟨-, he⟩ | ⟨p, t', -, hp, ⟨-, he⟩ | ⟨hr, he⟩⟩
    · rw [he] at saved
      cases saved
    · rw [he] at saved
      cases saved
    · rw [he] at saved
      cases saved
    · rw [he]
      exact ⟨p, hp, replaced_of_run hp hr⟩

/-- A folder with a settings file, and with what is left of another that was being saved. -/
def besideRest : Tree where
  here := ["home"]
  folders := []
  files := [(["home", "config.yaml"], "old"), (["home", "config.yaml.tmp"], "rest")]

theorem saveAs_besideRest :
    (saveAs (fun _ => "new") traced besideRest "config.yaml").2.outcome = .ok () ∧
    (saveAs (fun _ => "new") traced besideRest "config.yaml").1.read? "config.yaml" = some "new" ∧
    (saveAs (fun _ => "new") traced besideRest "config.yaml").1.file?
      ["home", "config.yaml.tmp"] = none ∧
    (besideRest.put ["home", "config.yaml.tmp"] "ne").read? "config.yaml" = some "old" ∧
    saveAs (fun _ => "new") { traced with separator := "" } besideRest "config.yaml" =
      (besideRest, Logged.fail (.flawed .emptySeparator)) := by
  have path : Path.ofText? "config.yaml" = some ⟨["config.yaml"]⟩ := by decide
  obtain ⟨-, -, cut, saved⟩ := saveAs_atomic (fun _ => "new") traced besideRest "config.yaml"
  obtain ⟨flawed, -⟩ :=
    saveAs_atomic (fun _ => "new") { traced with separator := "" } besideRest "config.yaml"
  have done : (saveAs (fun _ => "new") traced besideRest "config.yaml").2.outcome = .ok () := rfl
  obtain ⟨_, hp, replaced⟩ := saved done
  obtain rfl := Option.some.inj (path.symm.trans hp)
  have half : besideRest.Partway (saveSteps "new" ⟨["config.yaml"]⟩)
      (besideRest.put ["home", "config.yaml.tmp"] "ne") :=
    .later rfl (.here (.part "ne" (by decide)))
  exact ⟨done, replaced.read, replaced.noFile,
    (cut _ _ path (.partway rfl path half)).read "old" (by decide), (flawed _ rfl).1⟩

end ReadableTrace.Settings
