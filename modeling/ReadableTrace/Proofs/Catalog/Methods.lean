import ReadableTrace.Proofs.Catalog.History

/-!
# Which methods a type lists

Methods stand in two places: among the routines, where each names the type that declares it, and on
the types, each of which lists its methods. `Catalog.Listed` says that the two agree: every type
lists exactly the methods that it declares (`Catalog.Declares`), in the order in which they came in.
Every addition keeps this (`Listed.apply`), if routines belong to types of the catalog and types
come without methods; so it holds of every catalog that is assembled in this way
(`Listed.of_assembled`).

A new type declares nothing, since all routines belong to earlier types, and a new method stands
behind all others, since its position is the greatest so far.
-/

namespace ReadableTrace.Catalog

/-- The routine at a position is a method that a type declares. -/
structure Declares (c : Catalog) (owner : TypeRef) (ref : RoutineRef) (m : Routine) : Prop where
  routine : c.routine? ref = some m
  kind : m.kind = .method
  declaring : m.declaring = some owner

/-- The entry of a type lists the methods that the type declares, each once and by position. -/
structure ListsDeclared (c : Catalog) (owner : TypeRef) (t : TypeEntry) : Prop where
  increasing : t.methods.Pairwise fun a b => a.index < b.index
  mem_iff : ∀ ref, ref ∈ t.methods ↔ ∃ m, c.Declares owner ref m

/-- Routines belong to types of the catalog, and every type lists the methods that it declares. -/
structure Listed (c : Catalog) : Prop where
  owned : ∀ ref m owner, c.routine? ref = some m → m.declaring = some owner →
    owner.index.toNat < c.types.size
  lists : ∀ owner t, c.type? owner = some t → c.ListsDeclared owner t

variable {c c' : Catalog} {r owner : TypeRef} {ref q : RoutineRef} {t u : TypeEntry}
  {m m' : Routine} {name : String} {space : Option String}

/-! ## Looking up after an addition -/

theorem type?_addType :
    (c.addType t).2.type? r = if r.index.toNat = c.types.size then some t else c.type? r :=
  Array.getElem?_push

theorem type?_modifyType {f : TypeEntry → TypeEntry} :
    (c.modifyType owner f).type? r = (c.type? r).map fun t => if owner = r then f t else t := by
  have same : owner.index.toNat = r.index.toNat ↔ owner = r := by
    cases owner; cases r
    simp [UInt32.toNat_inj]
  rw [type?, modifyType, Array.getElem?_modify]
  simp only [same]
  split
  · rfl
  · exact Option.map_id'.symm

/-- The reference that the next routine gets. -/
def nextRoutine (c : Catalog) : RoutineRef := ⟨UInt32.ofNat c.routines.size⟩

theorem toNat_nextRoutine (h : c.routines.size < UInt32.size) :
    c.nextRoutine.index.toNat = c.routines.size :=
  UInt32.toNat_ofNat_of_lt' h

theorem routines_listMethod : (c.listMethod ref m).routines = c.routines := by
  rw [listMethod]
  split <;> rfl

theorem type?_addRoutine :
    (c.addRoutine m).2.type? r = (c.type? r).map fun t =>
      if m.kind = .method ∧ m.declaring = some r then
        { t with methods := t.methods ++ [c.nextRoutine] }
      else t := by
  show (c.listMethod c.nextRoutine m).type? r = _
  rw [listMethod]
  split
  · rename_i owner hk hd
    simp only [type?_modifyType, hk, hd, Option.some.injEq, true_and]
  · rename_i h
    have other : ¬ (m.kind = .method ∧ m.declaring = some r) := fun hm => h r hm.1 hm.2
    simp only [other, if_false, Option.map_id']

theorem routine?_addRoutine :
    (c.addRoutine m).2.routine? q =
      if q.index.toNat = c.routines.size then some m else c.routine? q := by
  show ((c.listMethod c.nextRoutine m).routines.push m)[q.index.toNat]? = _
  rw [routines_listMethod, Array.getElem?_push]
  rfl

theorem index_lt_of_routine? (h : c.routine? q = some m) : q.index.toNat < c.routines.size :=
  (Array.getElem?_eq_some_iff.1 h).1

/-- What a type declares after a routine was added: what it declared before, and the routine if that
is a method of the type. -/
theorem declares_addRoutine_iff (h : c.routines.size < UInt32.size) :
    (c.addRoutine m).2.Declares owner q m' ↔
      c.Declares owner q m' ∨
        q = c.nextRoutine ∧ m' = m ∧ m.kind = .method ∧ m.declaring = some owner := by
  have new : q.index.toNat = c.routines.size ↔ q = c.nextRoutine := by
    rw [← toNat_nextRoutine h, UInt32.toNat_inj]
    exact ⟨fun hq => congrArg RoutineRef.mk hq, congrArg RoutineRef.index⟩
  constructor
  · rintro ⟨hr, hk, hd⟩
    rw [routine?_addRoutine] at hr
    split at hr
    · rename_i hq
      obtain rfl := Option.some.inj hr
      exact .inr ⟨new.1 hq, rfl, hk, hd⟩
    · exact .inl ⟨hr, hk, hd⟩
  · rintro (⟨hr, hk, hd⟩ | ⟨rfl, rfl, hk, hd⟩)
    · refine ⟨?_, hk, hd⟩
      rw [routine?_addRoutine, if_neg (Nat.ne_of_lt (index_lt_of_routine? hr)), hr]
    · refine ⟨?_, hk, hd⟩
      rw [routine?_addRoutine, if_pos (new.2 rfl)]

/-! ## Additions -/

/-- What an entry lists only depends on the routines. -/
theorem ListsDeclared.congr (h : c.ListsDeclared owner t) (hr : c'.routines = c.routines)
    (hm : u.methods = t.methods) : c'.ListsDeclared owner u := by
  have same : c'.routine? = c.routine? := by
    funext ref
    rw [routine?, routine?, hr]
  refine ⟨hm ▸ h.increasing, fun ref => ?_⟩
  rw [hm, h.mem_iff ref]
  refine exists_congr fun m => ⟨fun hd => ?_, fun hd => ?_⟩
  · exact ⟨same ▸ hd.routine, hd.kind, hd.declaring⟩
  · exact ⟨same ▸ hd.routine, hd.kind, hd.declaring⟩

theorem listed_empty : Listed .empty where
  owned _ _ _ h := by cases h
  lists _ _ h := by cases h

theorem Listed.addType (h : c.Listed) (ht : t.methods = []) : (c.addType t).2.Listed where
  owned ref m owner hm hd := by
    have old := h.owned ref m owner hm hd
    simp only [Catalog.addType, Array.size_push]
    omega
  lists owner u hu := by
    rw [type?_addType] at hu
    split at hu
    · rename_i hi
      obtain rfl := Option.some.inj hu
      refine ⟨ht ▸ .nil, fun ref => ?_⟩
      rw [ht]
      -- a routine that the new type declares would belong to an earlier type
      refine ⟨fun hm => absurd hm List.not_mem_nil, fun ⟨m, hm⟩ => ?_⟩
      have old := h.owned ref m owner hm.routine hm.declaring
      omega
    · exact (h.lists owner u hu).congr rfl rfl

/-- What keeps the methods of a type may be done to it. -/
theorem Listed.modifyType {f : TypeEntry → TypeEntry} (h : c.Listed)
    (hf : ∀ t, (f t).methods = t.methods) : (c.modifyType r f).Listed where
  owned ref m owner hm hd := by
    simpa only [Catalog.modifyType, Array.size_modify] using h.owned ref m owner hm hd
  lists owner u hu := by
    rw [type?_modifyType] at hu
    obtain ⟨t, ht, rfl⟩ := Option.map_eq_some_iff.1 hu
    refine (h.lists owner t ht).congr rfl ?_
    split
    · exact hf t
    · rfl

theorem Listed.addRoutine (h : c.Listed) (hs : c.routines.size < UInt32.size)
    (hm : ∀ owner ∈ m.declaring, (c.type? owner).isSome = true) : (c.addRoutine m).2.Listed where
  owned ref m' owner hr hd := by
    have size : (c.addRoutine m).2.types.size = c.types.size := by
      show (c.listMethod c.nextRoutine m).types.size = _
      rw [listMethod]
      split
      · exact Array.size_modify
      · rfl
    rw [size]
    rw [routine?_addRoutine] at hr
    split at hr
    · obtain rfl := Option.some.inj hr
      obtain ⟨t, ht⟩ := Option.isSome_iff_exists.1 (hm owner hd)
      exact index_lt_of_type? ht
    · exact h.owned ref m' owner hr hd
  lists owner u hu := by
    rw [type?_addRoutine] at hu
    obtain ⟨t, ht, rfl⟩ := Option.map_eq_some_iff.1 hu
    obtain ⟨increasing, mem_iff⟩ := h.lists owner t ht
    by_cases declared : m.kind = .method ∧ m.declaring = some owner
    · rw [if_pos declared]
      refine ⟨List.pairwise_append.2 ⟨increasing, List.pairwise_singleton _ _, ?_⟩, fun q => ?_⟩
      · intro a ha b hb
        obtain ⟨m', hm'⟩ := (mem_iff a).1 ha
        rw [List.mem_singleton.1 hb, UInt32.lt_iff_toNat_lt, toNat_nextRoutine hs]
        exact index_lt_of_routine? hm'.routine
      · simp only [List.mem_append, List.mem_singleton, mem_iff, declares_addRoutine_iff hs,
          declared, and_true, exists_or, exists_and_left, exists_eq]
    · rw [if_neg declared]
      refine ⟨increasing, fun q => ?_⟩
      simp only [mem_iff, declares_addRoutine_iff hs, declared, and_false, or_false]

/-! ## Builders -/

theorem methods_derived {suffix : String} : (c.derived r suffix).methods = [] := by
  rw [derived]
  split <;> rfl

theorem Listed.addFrameworkType (h : c.Listed) : (c.addFrameworkType name).2.Listed := by
  rw [Catalog.addFrameworkType]
  split
  · exact h
  · exact h.addType rfl

theorem Listed.addGenericParameters {names : List String} (h : c.Listed) :
    (c.addGenericParameters names).2.Listed := by
  induction names generalizing c with
  | nil => exact h
  | cons name names ih => exact ih (h.addType rfl)

theorem routines_addGenericParameters {names : List String} :
    (c.addGenericParameters names).2.routines = c.routines := by
  induction names generalizing c with
  | nil => rfl
  | cons name names ih => exact ih

theorem Listed.applyStep {s : Step} (h : c.Listed) (hs : c.routines.size < UInt32.size)
    (known : ∀ m, s = .routine m → ∀ owner ∈ m.declaring, (c.type? owner).isSome = true) :
    (s.apply c).Listed := by
  cases s with
  | frameworkType name => exact h.addFrameworkType
  | namedType space name => exact h.addType rfl
  | nestedType outer name => exact h.addType rfl
  | genericParameter name => exact h.addType rfl
  | genericDefinition space name parameters => exact h.addGenericParameters.addType rfl
  | genericInstance definition arguments => exact h.addType methods_derived
  | array element rank => exact h.addType methods_derived
  | byRef element => exact h.addType methods_derived
  | nullable underlying => exact h.addType rfl
  | field owner f => exact h.modifyType fun _ => rfl
  | routine m => exact h.addRoutine hs (known m rfl)

/-- Nothing takes a routine away. -/
theorem routines_size_le_apply (a : Addition) : c.routines.size ≤ (a.apply c).routines.size := by
  cases a with
  | given t => exact Nat.le_refl _
  | built s =>
    cases s with
    | frameworkType name =>
      show _ ≤ (c.addFrameworkType name).2.routines.size
      rw [Catalog.addFrameworkType]
      split <;> exact Nat.le_refl _
    | genericDefinition space name parameters =>
      exact Nat.le_of_eq (congrArg Array.size routines_addGenericParameters.symm)
    | routine m =>
      show _ ≤ ((c.listMethod c.nextRoutine m).routines.push m).size
      rw [routines_listMethod, Array.size_push]
      exact Nat.le_succ _
    | _ => exact Nat.le_refl _

/-- An addition keeps the methods of all types listed. -/
theorem Listed.apply {a : Addition} (h : c.Listed) (hs : c.routines.size < UInt32.size)
    (ha : a.Owned c) : (a.apply c).Listed := by
  cases a with
  | built s => exact h.applyStep hs fun m hm => ha.known m (congrArg Addition.built hm)
  | given t => exact h.addType (ha.bare t rfl)

/-- In a catalog that was assembled from bare types and owned routines, every type lists the methods
that it declares. -/
theorem Listed.of_assembled (h : Assembled (fun c a => a.Owned c) c)
    (hs : c.routines.size < UInt32.size) : c.Listed := by
  induction h with
  | empty => exact listed_empty
  | @add c a _ ha ih =>
    have before : c.routines.size < UInt32.size := Nat.lt_of_le_of_lt (routines_size_le_apply a) hs
    exact (ih before).apply before ha

end ReadableTrace.Catalog
