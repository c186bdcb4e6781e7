import ReadableTrace.Files.Tree
import ReadableTrace.Proofs.Files.Path

/-!
# Files in a tree

A path leads somewhere if the places on its way are folders. `Tree.way t front` are those on the way
of pieces and `Tree.folder t front` is the last of them. Folders can be made on this way unless one
of its names is that of a file (`makeAlong_isSome_iff`), and then exactly the places around it are
folders that were not (`Made`). A file can be written there and then given another name if there is
`Room` for both names, and only then (`run_replace_iff`); it is read under the other name
(`read?_replace`), gone under the first (`file?_replace_source`), and no other file is changed
(`file?_replace_of_ne`).
-/

namespace ReadableTrace.Files.Tree

variable {t t' made : Tree} {p q place : Place} {names front : List String}
  {name name' contents : String}

/-! ## Folders -/

theorem isFolder_iff : t.isFolder p = true ↔
    p <+: t.here ∨ (∃ q ∈ t.folders, p <+: q) ∨ ∃ f ∈ t.files, p ≠ f.1 ∧ p <+: f.1 := by
  simp [isFolder, or_assoc]

/-- Around a folder there are folders. -/
theorem isFolder_of_isPrefix (h : t.isFolder p = true) (hq : q <+: p) : t.isFolder q = true := by
  rw [isFolder_iff] at h ⊢
  rcases h with h | ⟨r, hr, h⟩ | ⟨f, hf, hn, h⟩
  · exact .inl (hq.trans h)
  · exact .inr (.inl ⟨r, hr, hq.trans h⟩)
  · refine .inr (.inr ⟨f, hf, ?_, hq.trans h⟩)
    rintro rfl
    exact hn (h.eq_of_length_le hq.length_le)

theorem isFolder_dropLast (h : t.isFolder p = true) : t.isFolder p.dropLast = true :=
  isFolder_of_isPrefix h (List.dropLast_prefix p)

theorem isFolder_origin (t : Tree) (p : Path) : t.isFolder (t.origin p) = true := by
  rw [isFolder_iff, origin]
  split
  · exact .inl List.nil_prefix
  · exact .inl (List.prefix_refl _)

/-- A place between a folder and something in it. -/
theorem isPrefix_of_isPrefix_append (h : q <+: p ++ [name]) (hn : q ≠ p ++ [name]) : q <+: p := by
  rcases List.prefix_concat_iff.1 h with h | h
  · exact absurd h hn
  · exact h

/-- Putting a file takes no folder away. -/
theorem isFolder_put (h : t.isFolder q = true) : (t.put p contents).isFolder q = true := by
  rw [isFolder_iff] at h ⊢
  rcases h with h | h | ⟨f, hf, hn, h⟩
  · exact .inl h
  · exact .inr (.inl h)
  · refine .inr (.inr ?_)
    by_cases hp : f.1 = p
    · exact ⟨(p, contents), by simp [put], hp ▸ hn, hp ▸ h⟩
    · exact ⟨f, by simp [put, erase, hf, hp], hn, h⟩

/-- A file makes folders of what is around it and of nothing else. -/
theorem isFolder_of_put (h : (t.put p contents).isFolder q = true) :
    t.isFolder q = true ∨ q ≠ p ∧ q <+: p := by
  rw [isFolder_iff] at h
  rcases h with h | h | ⟨f, hf, hn, h⟩
  · exact .inl (isFolder_iff.2 (.inl h))
  · exact .inl (isFolder_iff.2 (.inr (.inl h)))
  · rcases List.mem_append.1 hf with hf | hf
    · exact .inl (isFolder_iff.2 (.inr (.inr ⟨f, (List.mem_filter.1 hf).1, hn, h⟩)))
    · obtain rfl := List.mem_singleton.1 hf
      exact .inr ⟨hn, h⟩

/-- Taking a file away makes no folder. -/
theorem isFolder_of_erase (h : (t.erase p).isFolder q = true) : t.isFolder q = true := by
  rw [isFolder_iff] at h ⊢
  rcases h with h | h | ⟨f, hf, h⟩
  · exact .inl h
  · exact .inr (.inl h)
  · exact .inr (.inr ⟨f, (List.mem_filter.1 hf).1, h⟩)

/-- Giving a file another name in its folder takes no folder away, if none has that name. -/
theorem isFolder_replace {name' : String} (hf : t.isFolder (p ++ [name']) = false)
    (h : t.isFolder q = true) :
    ((t.erase (p ++ [name])).put (p ++ [name']) contents).isFolder q = true := by
  have other : q ≠ p ++ [name'] := by
    rintro rfl
    exact Bool.false_ne_true (hf.symm.trans h)
  rw [isFolder_iff] at h
  rcases h with h | h | ⟨f, hm, hn, h⟩
  · exact isFolder_put (isFolder_iff.2 (.inl h))
  · exact isFolder_put (isFolder_iff.2 (.inr (.inl h)))
  · by_cases he : f.1 = p ++ [name]
    · have around : q <+: p := isPrefix_of_isPrefix_append (he ▸ h) (he ▸ hn)
      refine isFolder_iff.2 (.inr (.inr ⟨(p ++ [name'], contents), by simp [put], other, ?_⟩))
      exact around.trans (List.prefix_append p [name'])
    · refine isFolder_put (isFolder_iff.2 (.inr (.inr ⟨f, ?_, hn, h⟩)))
      simp [erase, hm, he]

/-! ## Files -/

theorem file?_erase_self (t : Tree) (p : Place) : (t.erase p).file? p = none := by
  rw [file?, List.lookup_eq_none_iff]
  intro f hf
  exact bne_iff_ne.2 (bne_iff_ne.1 (List.mem_filter.1 hf).2).symm

theorem file?_erase_of_ne (h : q ≠ p) : (t.erase p).file? q = t.file? q := by
  simp only [file?, erase]
  induction t.files with
  | nil => rfl
  | cons f fs ih =>
    by_cases hf : f.1 = p
    · have passed : (q == f.1) = false := beq_eq_false_iff_ne.2 (hf ▸ h)
      rw [List.filter_cons_of_neg (by simp [hf]), List.lookup_cons, passed]
      exact ih
    · rw [List.filter_cons_of_pos (by simp [hf]), List.lookup_cons, List.lookup_cons, ih]

theorem file?_put (t : Tree) (p : Place) (contents : String) :
    (t.put p contents).file? p = some contents := by
  have gone : (t.erase p).files.lookup p = none := t.file?_erase_self p
  simp [file?, put, List.lookup_append, gone]

/-- Putting a file changes no other. -/
theorem file?_put_of_ne (h : q ≠ p) : (t.put p contents).file? q = t.file? q := by
  have passed : (q == p) = false := beq_eq_false_iff_ne.2 h
  have others : (t.erase p).files.lookup q = t.file? q := file?_erase_of_ne h
  rw [file?, put, List.lookup_append, others, List.lookup_cons, passed]
  simp

/-! ## Ways -/

/-- A way leads to the same place in every tree that has the folders on it. -/
theorem follow?_mono (h : ∀ q, t.isFolder q = true → t'.isFolder q = true)
    (hf : t.follow? p names = some q) : t'.follow? p names = some q := by
  induction names generalizing p with
  | nil => exact hf
  | cons name names ih =>
    rw [follow?] at hf ⊢
    split at hf
    case isTrue hn =>
      rw [Bool.and_eq_true] at hn
      rw [if_pos (by rw [h p hn.1, hn.2]; rfl)]
      exact ih hf
    case isFalse => cases hf

theorem resolve?_mono {path : Path} (hr : t.resolve? path = some place) (here : t'.here = t.here)
    (h : ∀ q, t.isFolder q = true → t'.isFolder q = true) : t'.resolve? path = some place := by
  rw [resolve?] at hr ⊢
  split at hr
  case isTrue fits =>
    rw [if_pos fits, origin, here]
    exact follow?_mono h hr
  case isFalse => cases hr

/-- A way through folders is followed up to its last name. -/
theorem follow?_of_folders (hp : t.isFolder p = true)
    (hf : ∀ q ∈ places p names, t.isFolder q = true)
    (hn : ∀ n ∈ names, Path.isName n = true) (name : String) :
    t.follow? p (names ++ [name]) =
      if Path.isName name then some (next (names.foldl next p) name) else none := by
  induction names generalizing p with
  | nil =>
    rw [List.nil_append, follow?, hp, Bool.true_and]
    rfl
  | cons n names ih =>
    rw [places, List.forall_mem_cons] at hf
    rw [List.forall_mem_cons] at hn
    rw [List.cons_append, follow?, hp, hn.1]
    exact ih hf.1 hf.2 hn.2

theorem foldl_next_mem (p : Place) (names : List String) :
    names.foldl next p = p ∨ names.foldl next p ∈ places p names := by
  induction names generalizing p with
  | nil => exact .inl rfl
  | cons n names ih =>
    rw [places, List.mem_cons]
    exact .inr ((ih (next p n)).imp_right id)

/-- Folders can be made along a way unless one of its names is that of a file or of nothing. -/
theorem makeAlong_isSome_iff : (t.makeAlong p names).isSome = true ↔
    (∀ q ∈ places p names, t.file? q = none) ∧ ∀ n ∈ names, Path.isName n = true := by
  induction names generalizing t p with
  | nil => simp [makeAlong, places]
  | cons n names ih =>
    rw [makeAlong, places, List.forall_mem_cons, List.forall_mem_cons]
    split
    case isTrue h =>
      rw [Bool.or_eq_true, Option.isSome_iff_ne_none, Bool.not_eq_true'] at h
      simp only [Option.isSome_none, Bool.false_eq_true, false_iff]
      rintro ⟨⟨hf, -⟩, hn, -⟩
      rcases h with h | h
      · exact h hf
      · exact Bool.false_ne_true (h.symm.trans hn)
    case isFalse h =>
      simp only [Bool.or_eq_true, Option.isSome_iff_ne_none, Bool.not_eq_true', not_or,
        Decidable.not_not, Bool.not_eq_false] at h
      -- one more folder does not show in the files
      have more : (makeAlong { t with folders := t.folders ++ [next p n] } (next p n)
          names).isSome = true ↔ _ := ih
      split
      · rw [ih]
        simp [h.1, h.2]
      · rw [more]
        simp only [h.1, h.2, true_and]
        rfl

theorem isFolder_append_folders : isFolder { t with folders := t.folders ++ [p] } q = true ↔
    t.isFolder q = true ∨ q <+: p := by
  simp only [isFolder_iff, List.mem_append, List.mem_singleton, or_and_right, exists_or,
    exists_eq_left]
  constructor
  · rintro (h | (h | h) | h)
    · exact .inl (.inl h)
    · exact .inl (.inr (.inl h))
    · exact .inr h
    · exact .inl (.inr (.inr h))
  · rintro ((h | h | h) | h)
    · exact .inl h
    · exact .inr (.inl (.inl h))
    · exact .inr (.inr h)
    · exact .inr (.inl (.inr h))

/-- Making folders changes no file. -/
theorem files_of_makeAlong (h : t.makeAlong p names = some t') : t'.files = t.files := by
  induction names generalizing t p with
  | nil => rw [Option.some.inj h]
  | cons n names ih =>
    rw [makeAlong] at h
    split at h
    case isTrue => cases h
    case isFalse =>
      split at h
      case isTrue => rw [ih h]
      case isFalse => rw [ih h]

/-- Making folders along a way makes folders of the places around it and changes nothing else. -/
theorem makeAlong_eq_some (h : t.makeAlong p names = some t') : t'.here = t.here ∧
    ∀ q, t'.isFolder q = true ↔ t.isFolder q = true ∨ ∃ r ∈ places p names, q <+: r := by
  induction names generalizing t p with
  | nil =>
    obtain rfl := Option.some.inj h
    exact ⟨rfl, fun q => by simp [places]⟩
  | cons n names ih =>
    rw [makeAlong] at h
    simp only [places, List.mem_cons, exists_eq_or_imp]
    split at h
    case isTrue => cases h
    case isFalse =>
      split at h
      case isTrue hd =>
        obtain ⟨hh, hq⟩ := ih h
        refine ⟨hh, fun q => ?_⟩
        rw [hq, ← or_assoc, or_iff_left_of_imp fun hp => isFolder_of_isPrefix hd hp]
      case isFalse =>
        obtain ⟨hh, hq⟩ := ih h
        exact ⟨hh, fun q => by rw [hq, isFolder_append_folders, or_assoc]⟩

/-! ## The folder of a path -/

/-- The places on the way that pieces of a path lead. -/
def way (t : Tree) (front : List String) : List Place :=
  places (t.origin ⟨front ++ [""]⟩) (Path.names ⟨front⟩)

/-- The place that pieces of a path lead to. -/
def folder (t : Tree) (front : List String) : Place :=
  (Path.names ⟨front⟩).foldl next (t.origin ⟨front ++ [""]⟩)

/-- Folders can be made on the way of these pieces: its names are names of folders, and no file is
there. -/
structure Free (t : Tree) (front : List String) : Prop where
  noFile : ∀ q ∈ t.way front, t.file? q = none
  isName : ∀ n ∈ Path.names ⟨front⟩, Path.isName n = true

/-- A tree in which the folders on the way of these pieces are made. -/
structure Made (t made : Tree) (front : List String) : Prop where
  here : made.here = t.here
  isFolder : ∀ q, made.isFolder q = true ↔ t.isFolder q = true ∨ ∃ r ∈ t.way front, q <+: r
  isName : ∀ n ∈ Path.names ⟨front⟩, Path.isName n = true

/-- In the folder that pieces of a path lead to, a file can have this name: it is one that files can
have, behind a path that is short enough, and no folder has it, nor does the way lead through one
that would. -/
structure Room (t : Tree) (front : List String) (name : String) : Prop where
  fits : Path.fits ⟨front ++ [name]⟩ = true
  isNamed : Path.isVoid name = false
  isName : Path.isName name = true
  notOut : name ≠ ".."
  notFolder : t.isFolder (t.folder front ++ [name]) = false
  notOnWay : ∀ q ∈ t.way front, ¬ t.folder front ++ [name] <+: q

/-- The step that makes folders can be done if they can be made. -/
theorem step?_makeFolders_isSome_iff :
    (t.step? (.makeFolders ⟨front ++ [""]⟩)).isSome = true ↔
      Path.fits ⟨front ++ [""]⟩ = true ∧ t.Free front := by
  rw [step?, Path.names_parent]
  split
  case isTrue fits =>
    rw [makeAlong_isSome_iff]
    exact ⟨fun ⟨noFile, isName⟩ => ⟨fits, noFile, isName⟩, fun ⟨_, h⟩ => ⟨h.noFile, h.isName⟩⟩
  case isFalse fits => exact ⟨nofun, fun h => absurd h.1 fits⟩

theorem made_of_step? (h : t.step? (.makeFolders ⟨front ++ [""]⟩) = some made) :
    Made t made front := by
  obtain ⟨fits, free⟩ := step?_makeFolders_isSome_iff.1 (Option.isSome_of_eq_some h)
  rw [step?, Path.names_parent, if_pos fits] at h
  obtain ⟨here, isFolder⟩ := makeAlong_eq_some h
  exact ⟨here, isFolder, free.isName⟩

namespace Made

theorem origin (h : Made t made front) (name : String) :
    made.origin ⟨front ++ [name]⟩ = t.origin ⟨front ++ [""]⟩ := by
  rw [Tree.origin, Tree.origin, Path.isAbsolute_append_singleton, h.here]

theorem isFolder_way (h : Made t made front) : ∀ q ∈ t.way front, made.isFolder q = true :=
  fun q hq => (h.isFolder q).2 (.inr ⟨q, hq, List.prefix_refl q⟩)

theorem isFolder_origin (h : Made t made front) :
    made.isFolder (t.origin ⟨front ++ [""]⟩) = true :=
  (h.isFolder _).2 (.inl (Tree.isFolder_origin t _))

theorem isFolder_folder (h : Made t made front) : made.isFolder (t.folder front) = true := by
  rw [folder]
  rcases foldl_next_mem (t.origin ⟨front ++ [""]⟩) (Path.names ⟨front⟩) with he | hm
  · rw [he]
    exact h.isFolder_origin
  · exact h.isFolder_way _ hm

/-- A path through folders that are made leads to what its last name leads to. -/
theorem resolve? (h : Made t made front) (hv : Path.isVoid name = false) :
    made.resolve? ⟨front ++ [name]⟩ = if Path.fits ⟨front ++ [name]⟩ && Path.isName name
      then some (next (t.folder front) name) else none := by
  rw [Tree.resolve?, Path.names_append_singleton hv, h.origin,
    follow?_of_folders h.isFolder_origin h.isFolder_way h.isName]
  cases Path.fits ⟨front ++ [name]⟩ <;> rfl

/-- Where there is room, the last name leads to the place for the file, and no folder is there. -/
theorem resolve?_of_room (h : Made t made front) (room : t.Room front name) :
    made.resolve? ⟨front ++ [name]⟩ = some (t.folder front ++ [name]) ∧
      made.isFolder (t.folder front ++ [name]) = false := by
  refine ⟨?_, ?_⟩
  · rw [h.resolve? room.isNamed, room.fits, room.isName, next, if_neg room.notOut]
    rfl
  · rw [← Bool.not_eq_true, h.isFolder]
    rintro (hf | ⟨q, hq, hp⟩)
    · exact Bool.false_ne_true (room.notFolder.symm.trans hf)
    · exact room.notOnWay q hq hp

/-- Once the folders are made, a file can be written where there is room for it. -/
theorem writable?_eq_some_iff (h : Made t made front) :
    made.writable? ⟨front ++ [name]⟩ = some place ↔
      t.Room front name ∧ place = t.folder front ++ [name] := by
  have taken (notFolder : made.isFolder (t.folder front ++ [name]) = false) :
      t.isFolder (t.folder front ++ [name]) = false ∧
        ∀ q ∈ t.way front, ¬ t.folder front ++ [name] <+: q := by
    rw [← Bool.not_eq_true, h.isFolder, not_or, Bool.not_eq_true] at notFolder
    exact ⟨notFolder.1, fun q hq hp => notFolder.2 ⟨q, hq, hp⟩⟩
  constructor
  · intro hw
    simp only [writable?, Path.endsOpen_append_singleton, Option.bind_eq_bind,
      Option.bind_eq_some_iff] at hw
    obtain ⟨place', hr, hw⟩ := hw
    split at hw
    case isTrue => cases hw
    case isFalse hn =>
      obtain rfl := Option.some.inj hw
      simp only [Bool.or_eq_true, not_or, Bool.not_eq_true] at hn
      obtain ⟨⟨isNamed, notFolder⟩, -⟩ := hn
      rw [h.resolve? isNamed] at hr
      split at hr
      case isFalse => cases hr
      case isTrue hs =>
        obtain rfl := Option.some.inj hr
        obtain ⟨fits, isName⟩ := (Bool.and_eq_true _ _).mp hs
        -- the folder around is there, so the name does not lead to it
        have notOut : name ≠ ".." := by
          rintro rfl
          exact Bool.false_ne_true (notFolder.symm.trans (isFolder_dropLast h.isFolder_folder))
        rw [next, if_neg notOut] at notFolder ⊢
        obtain ⟨notThere, notOnWay⟩ := taken notFolder
        exact ⟨⟨fits, isNamed, isName, notOut, notThere, notOnWay⟩, rfl⟩
  · rintro ⟨room, rfl⟩
    obtain ⟨resolved, notFolder⟩ := h.resolve?_of_room room
    simp [writable?, resolved, Path.endsOpen_append_singleton, room.isNamed, notFolder,
      h.isFolder_folder]

/-- A file in the folder makes no more folders. -/
theorem put (h : Made t made front) (name contents : String) :
    Made t (made.put (t.folder front ++ [name]) contents) front := by
  refine ⟨h.here, fun q => ?_, h.isName⟩
  rw [← h.isFolder]
  constructor
  · intro hq
    rcases isFolder_of_put hq with hq | ⟨hn, hq⟩
    · exact hq
    · exact isFolder_of_isPrefix h.isFolder_folder (isPrefix_of_isPrefix_append hq hn)
  · exact isFolder_put

end Made

/-! ## Writing and renaming -/

theorem run_cons_iff {s : Step} {rest : List Step} : t.run (s :: rest) = (t', true) ↔
    ∃ t₁, t.step? s = some t₁ ∧ t₁.run rest = (t', true) := by
  rw [run]
  cases t.step? s <;> simp

/-- A file is only given a path that does not end like that of a folder. -/
theorem endsOpen_of_run {steps : List Step} {source target : Path}
    (h : t.run (steps ++ [.rename source target]) = (t', true)) : target.endsOpen = false := by
  induction steps generalizing t with
  | cons s steps ih =>
    obtain ⟨t₁, -, h⟩ := run_cons_iff.1 h
    exact ih h
  | nil =>
    obtain ⟨t₁, h, -⟩ := run_cons_iff.1 h
    simp only [step?, writable?, Option.bind_eq_bind, Option.bind_eq_some_iff] at h
    obtain ⟨_, -, _, -, _, ⟨_, -, h⟩, -⟩ := h
    rw [← Bool.not_eq_true]
    intro opens
    simp [opens] at h

/-- The tree in which a file is written under one name and then given another. -/
def replace (t : Tree) (p : Place) (name name' contents : String) : Tree :=
  ((t.put (p ++ [name]) contents).erase (p ++ [name])).put (p ++ [name']) contents

/-- A file that is given another name is gone under the first one. -/
theorem file?_replace_source (h : name ≠ name') :
    (t.replace p name name' contents).file? (p ++ [name]) = none := by
  rw [replace, file?_put_of_ne (by simpa using h), file?_erase_self]

theorem file?_replace_of_ne (h : q ≠ p ++ [name]) (h' : q ≠ p ++ [name']) :
    (t.replace p name name' contents).file? q = t.file? q := by
  rw [replace, file?_put_of_ne h', file?_erase_of_ne h, file?_put_of_ne h]

/-- No folder takes the place of the file that is given another name. -/
theorem isFolder_replace_source (hf : t.isFolder (p ++ [name]) = false) :
    (t.replace p name name' contents).isFolder (p ++ [name]) = false := by
  have apart (other : String) : ¬ (p ++ [name] ≠ p ++ [other] ∧ p ++ [name] <+: p ++ [other]) := by
    rintro ⟨hn, hp⟩
    exact hn (hp.eq_of_length (by simp))
  rw [← Bool.not_eq_true]
  intro made
  rcases isFolder_of_put made with made | made
  · rcases isFolder_of_put (isFolder_of_erase made) with made | made
    · exact Bool.false_ne_true (hf.symm.trans made)
    · exact apart _ made
  · exact apart _ made

/-- A file can be written under one name and given another if there is room for both. -/
theorem run_replace_iff (h : Made t made front) : made.run [.write ⟨front ++ [name]⟩ contents,
      .rename ⟨front ++ [name]⟩ ⟨front ++ [name']⟩] = (t', true) ↔
    t.Room front name ∧ t.Room front name' ∧
      t' = made.replace (t.folder front) name name' contents := by
  have write {t₁ : Tree} : made.step? (.write ⟨front ++ [name]⟩ contents) = some t₁ ↔
      t.Room front name ∧ t₁ = made.put (t.folder front ++ [name]) contents := by
    rw [step?, Option.map_eq_some_iff]
    simp only [h.writable?_eq_some_iff]
    constructor
    · rintro ⟨_, ⟨room, rfl⟩, rfl⟩
      exact ⟨room, rfl⟩
    · rintro ⟨room, rfl⟩
      exact ⟨_, ⟨room, rfl⟩, rfl⟩
  have rename {t₂ : Tree} (room : t.Room front name) :
      (made.put (t.folder front ++ [name]) contents).step?
        (.rename ⟨front ++ [name]⟩ ⟨front ++ [name']⟩) = some t₂ ↔
      t.Room front name' ∧ t₂ = made.replace (t.folder front) name name' contents := by
    obtain ⟨source, -⟩ := (h.put name contents).resolve?_of_room room
    simp only [step?, source, file?_put, Option.bind_eq_bind, Option.bind_some,
      Option.bind_eq_some_iff, (h.put name contents).writable?_eq_some_iff]
    constructor
    · rintro ⟨_, ⟨room', rfl⟩, ht⟩
      exact ⟨room', (Option.some.inj ht).symm⟩
    · rintro ⟨room', rfl⟩
      exact ⟨_, ⟨room', rfl⟩, rfl⟩
  simp only [run_cons_iff, write]
  constructor
  · rintro ⟨_, ⟨room, rfl⟩, t₂, hs, he⟩
    obtain ⟨room', rfl⟩ := (rename room).1 hs
    exact ⟨room, room', (Prod.mk.inj he).1.symm⟩
  · rintro ⟨room, room', rfl⟩
    exact ⟨_, ⟨room, rfl⟩, _, (rename room).2 ⟨room', rfl⟩, rfl⟩

/-- What is written is read under the name that it is given. -/
theorem read?_replace {text : String} (h : Made t made front) (room : t.Room front name')
    (ht : Path.ofText? text = some ⟨front ++ [name']⟩) (name contents : String) :
    (made.replace (t.folder front) name name' contents).read? text = some contents := by
  obtain ⟨resolved, notFolder⟩ := (h.put name contents).resolve?_of_room room
  have place : (made.replace (t.folder front) name name' contents).resolve? ⟨front ++ [name']⟩ =
      some (t.folder front ++ [name']) :=
    resolve?_mono resolved rfl fun _ => isFolder_replace notFolder
  rw [read?, ht, Option.bind_eq_bind, Option.bind_some, Path.endsOpen_append_singleton,
    room.isNamed, place]
  exact file?_put _ _ _

end ReadableTrace.Files.Tree
