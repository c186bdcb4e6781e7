import ReadableTrace.Proofs.Files.Tree

/-!
# Steps that are cut off

`Tree.run` does steps up to the first that fails. A program can also come to its end in the middle
of a step: `Tree.Leaves` is what such a step leaves, and `Tree.Partway` is where several steps can
be when they end too early, for whatever reason. A run that fails is one of these cases
(`partway_of_run`).

A file is safe until it is renamed to: if the last step gives a file another name and the steps
before it only make folders and write at other places, then all that is found on the way is the file
as it was (`keeps_of_partway`).
-/

namespace ReadableTrace.Files.Tree

/-- What a step can leave when it is cut off. Folders are made from the outer to the inner ones, and
of a file there can be any part. A file is given another name at once. -/
inductive Leaves (t : Tree) : Step → Tree → Prop
  | nothing {s} : t.Leaves s t
  | folders {p front t'} : front <+: p.names → t.makeAlong (t.origin p) front = some t' →
    t.Leaves (.makeFolders p) t'
  | part {p contents place} (partly : String) : t.writable? p = some place →
    t.Leaves (.write p contents) (t.put place partly)

/-- Where steps can be when they end before the last of them is done. -/
inductive Partway : Tree → List Step → Tree → Prop
  | here {t s rest t'} : t.Leaves s t' → Partway t (s :: rest) t'
  | later {t s rest t₁ t'} : t.step? s = some t₁ → Partway t₁ rest t' → Partway t (s :: rest) t'

/-- The place of a path, also if the folders on its way are not there yet. -/
def lands (t : Tree) (p : Path) : Place := p.names.foldl next (t.origin p)

/-- A step that does not touch the file at a place, whatever folders are there: one that makes
folders, or writes a file that is not at this place. -/
def Spares (here q : Place) : Step → Prop
  | .makeFolders _ => True
  | .write p _ => ∀ t : Tree, t.here = here → t.writable? p ≠ some q
  | .rename _ _ => False

/-- A tree that has all the folders of another, and the same file at a place. -/
structure Keeps (q : Place) (t t' : Tree) : Prop where
  here : t'.here = t.here
  isFolder : ∀ r, t.isFolder r = true → t'.isFolder r = true
  file : t'.file? q = t.file? q

variable {t t' t₁ : Tree} {path source target : Path} {p q place here : Place}
  {names front : List String} {name : String} {steps : List Step} {s : Step}

/-! ## Places -/

theorem eq_foldl_of_follow? (h : t.follow? p names = some place) : place = names.foldl next p := by
  induction names generalizing p with
  | nil => exact (Option.some.inj h).symm
  | cons n names ih =>
    rw [follow?] at h
    split at h
    case isTrue => exact ih h
    case isFalse => cases h

/-- What has a name in it is a folder. -/
theorem isFolder_of_follow? (h : t.follow? p (names ++ [name]) = some place) :
    t.isFolder (names.foldl next p) = true := by
  induction names generalizing p with
  | nil =>
    rw [List.nil_append, follow?] at h
    split at h
    case isTrue hn => exact ((Bool.and_eq_true _ _).mp hn).1
    case isFalse => cases h
  | cons n names ih =>
    rw [List.cons_append, follow?] at h
    split at h
    case isTrue => exact ih h
    case isFalse => cases h

theorem follow?_of_resolve? (h : t.resolve? path = some place) :
    t.follow? (t.origin path) path.names = some place := by
  rw [resolve?] at h
  split at h
  case isTrue => exact h
  case isFalse => cases h

theorem eq_lands_of_resolve? (h : t.resolve? path = some place) : place = t.lands path :=
  eq_foldl_of_follow? (follow?_of_resolve? h)

/-- A file is written in a folder, at a place that is not one. -/
theorem of_writable? (h : t.writable? path = some place) : t.resolve? path = some place ∧
    t.isFolder place = false ∧ t.isFolder place.dropLast = true := by
  simp only [writable?, Option.bind_eq_bind, Option.bind_eq_some_iff] at h
  obtain ⟨place', hr, h⟩ := h
  split at h
  case isTrue => cases h
  case isFalse hn =>
    obtain rfl := Option.some.inj h
    simp only [Bool.or_eq_true, Bool.not_eq_true', not_or, Bool.not_eq_true,
      Bool.not_eq_false] at hn
    exact ⟨hr, hn.1.2, hn.2⟩

theorem eq_lands_of_writable? (h : t.writable? path = some place) : place = t.lands path :=
  eq_lands_of_resolve? (of_writable? h).1

theorem lands_congr (h : t'.here = t.here) (path : Path) : t'.lands path = t.lands path := by
  rw [lands, lands, origin, origin, h]

/-- The place of a path is in the folder of what is in front of its last name. -/
theorem lands_of_splitLast? (h : Path.splitLast? path.pieces = some (front, name)) :
    t.lands path = next (t.folder front) name := by
  obtain ⟨pieces⟩ := path
  obtain ⟨hn, ha⟩ := Path.names_of_splitLast?_eq_some h
  rw [lands, hn, origin, ha, List.foldl_append]
  rfl

/-- A path with a last name is followed into the folder of what is in front of it. -/
theorem of_resolve?_append_singleton (hn : Path.isVoid name = false)
    (h : t.resolve? ⟨front ++ [name]⟩ = some place) :
    t.isFolder (t.folder front) = true ∧ place = next (t.folder front) name := by
  constructor
  · have way := follow?_of_resolve? h
    rw [Path.names_append_singleton hn] at way
    rw [folder, origin, ← Path.isAbsolute_append_singleton]
    exact isFolder_of_follow? way
  · rw [eq_lands_of_resolve? h, lands_of_splitLast? (Path.splitLast?_append_singleton front hn)]

/-- Where there is room for a file, it is in the folder under its name. -/
theorem lands_of_room (room : t.Room front name) :
    t.lands ⟨front ++ [name]⟩ = t.folder front ++ [name] := by
  rw [lands_of_splitLast? (Path.splitLast?_append_singleton front room.isNamed), next,
    if_neg room.notOut]

theorem read?_eq_some_iff {text contents : String} (hp : Path.ofText? text = some path) :
    t.read? text = some contents ↔ path.endsOpen = false ∧
      ∃ place, t.resolve? path = some place ∧ t.file? place = some contents := by
  rw [read?, hp, Option.bind_eq_bind, Option.bind_some]
  cases path.endsOpen <;> simp [Option.bind_eq_some_iff]

theorem next_ne_append {folder : Place} {other : String} (h : other ≠ name) :
    next folder name ≠ folder ++ [other] := by
  intro he
  rw [next] at he
  split at he
  case isTrue =>
    have size := congrArg List.length he
    rw [List.length_dropLast, List.length_append, List.length_singleton] at size
    omega
  case isFalse => exact h (List.singleton_inj.1 (List.append_cancel_left he)).symm

/-- The file with another ending is not the file itself. If the new ending makes the name lead to
the folder around, then there is no such file. -/
theorem writable?_withEnding_ne {first last : String} (hl : '.' ∉ last.toList) :
    t.writable? (path.withEnding (first ++ "." ++ last)) ≠ some (t.lands path) := by
  intro h
  obtain ⟨hr, notFolder, -⟩ := of_writable? h
  cases hs : Path.splitLast? path.pieces with
  | none =>
    have start : t.lands path = t.origin path := by
      obtain ⟨pieces⟩ := path
      rw [lands, Path.names_of_splitLast?_eq_none hs]
      rfl
    rw [start, isFolder_origin] at notFolder
    cases notFolder
  | some split =>
    obtain ⟨front, name⟩ := split
    rw [Path.withEnding, hs] at hr
    have named : Path.isVoid (Path.nameWithEnding name (first ++ "." ++ last)) = false :=
      Path.isVoid_nameWithEnding name (fun he => by simpa using congrArg String.length he)
    rw [lands_of_splitLast? hs] at hr notFolder
    obtain ⟨folder, place⟩ := of_resolve?_append_singleton named hr
    have notOut : Path.nameWithEnding name (first ++ "." ++ last) ≠ ".." := by
      intro out
      rw [place, out, next, if_pos rfl, isFolder_dropLast folder] at notFolder
      cases notFolder
    refine next_ne_append (Path.nameWithEnding_ne hl notOut) (place.trans ?_)
    rw [next, if_neg notOut]

/-! ## Steps -/

namespace Keeps

theorem refl (q : Place) (t : Tree) : Keeps q t t := ⟨rfl, fun _ => id, rfl⟩

theorem trans (h : Keeps q t t₁) (h' : Keeps q t₁ t') : Keeps q t t' :=
  ⟨h'.here.trans h.here, fun r hr => h'.isFolder r (h.isFolder r hr), h'.file.trans h.file⟩

theorem of_makeAlong (h : t.makeAlong p names = some t') : Keeps q t t' := by
  obtain ⟨hh, hf⟩ := makeAlong_eq_some h
  exact ⟨hh, fun r hr => (hf r).2 (.inl hr), by rw [file?, file?, files_of_makeAlong h]⟩

theorem put (h : q ≠ p) (contents : String) : Keeps q t (t.put p contents) :=
  ⟨rfl, fun _ => isFolder_put, file?_put_of_ne h⟩

/-- The file is read as before, if it could be read. -/
theorem read? {text contents : String} (h : Keeps (t.lands path) t t')
    (hp : Path.ofText? text = some path) (hr : t.read? text = some contents) :
    t'.read? text = some contents := by
  rw [read?_eq_some_iff hp] at hr ⊢
  obtain ⟨closed, place, hr, hf⟩ := hr
  obtain rfl := eq_lands_of_resolve? hr
  exact ⟨closed, _, resolve?_mono hr h.here h.isFolder, h.file.trans hf⟩

/-- If the file can be read, then as it was. -/
theorem file?_of_read? {text contents : String} (h : Keeps (t.lands path) t t')
    (hp : Path.ofText? text = some path) (hr : t'.read? text = some contents) :
    t.file? (t.lands path) = some contents := by
  obtain ⟨-, place, hr, hf⟩ := (read?_eq_some_iff hp).1 hr
  obtain rfl := eq_lands_of_resolve? hr
  rw [← h.file, ← lands_congr h.here]
  exact hf

end Keeps

/-- Any part of a step that spares a place can be done, and all of it is such a part. -/
theorem Spares.leaves (hs : Spares here q s) (h : t.step? s = some t') : t.Leaves s t' := by
  cases s with
  | makeFolders p =>
    rw [step?] at h
    split at h
    case isTrue => exact .folders (List.prefix_refl _) h
    case isFalse => cases h
  | write p contents =>
    obtain ⟨place, hw, rfl⟩ := Option.map_eq_some_iff.1 h
    exact .part contents hw
  | rename => exact hs.elim

theorem Spares.keeps (hs : Spares t.here q s) (h : t.Leaves s t') : Keeps q t t' := by
  cases h with
  | nothing => exact .refl q t
  | folders _ hm => exact .of_makeAlong hm
  | part partly hw =>
    refine .put ?_ partly
    rintro rfl
    exact hs _ rfl hw

/-! ## Runs -/

/-- **Nothing is replaced before the last step.** If that step is a rename, then a place that the
steps before it spare has its file until all of them are done. -/
theorem keeps_of_partway (h : t.Partway (steps ++ [.rename source target]) t')
    (hs : ∀ s ∈ steps, Spares t.here q s) : Keeps q t t' := by
  induction steps generalizing t with
  | nil =>
    cases h with
    | here hl =>
      cases hl
      exact .refl q _
    | later _ hp => cases hp
  | cons s steps ih =>
    rw [List.forall_mem_cons] at hs
    cases h with
    | here hl => exact hs.1.keeps hl
    | later hd hp =>
      have kept := hs.1.keeps (hs.1.leaves hd)
      exact kept.trans (ih hp (kept.here ▸ hs.2))

/-- Steps that fail are cut off. -/
theorem partway_of_run (h : t.run steps = (t', false)) : t.Partway steps t' := by
  induction steps generalizing t with
  | nil => cases h
  | cons s rest ih =>
    rw [run] at h
    split at h
    case h_1 t₁ hd => exact .later hd (ih h)
    case h_2 =>
      obtain rfl := (Prod.mk.inj h).1
      exact .here .nothing

end ReadableTrace.Files.Tree
