import ReadableTrace.Proofs.Catalog.Methods
import ReadableTrace.Proofs.Frame.AsyncMethod

/-!
# The method of a state machine is found

`Frame.asyncMethodOf` counts the listed methods of a type that are marked with a state machine.
Where types list exactly the methods that they declare, it finds the one declared method that is
marked (`Catalog.IsSource`), and if there is none or more than one, it fails as the catalog then
contradicts itself (`Listed.asyncMethodOf_cases`). Catalogs that were assembled from bare types and
owned routines are such catalogs (`Assembled.methods_exact`).
-/

namespace ReadableTrace.Catalog

open Log Outcome ReadableTrace.Frame

/-- The routine at a position is a method that a type declares and that is marked with a state
machine. -/
structure Marks (c : Catalog) (outer machine : TypeRef) (ref : RoutineRef) (m : Routine) : Prop
    extends c.Declares outer ref m where
  machine : m.machine = some machine

/-- Of the methods that a type declares, exactly one is marked with a state machine, and it is the
given one. -/
def IsSource (c : Catalog) (outer machine : TypeRef) (m : Routine) : Prop :=
  ∃ ref, c.Marks outer machine ref m ∧ ∀ q n, c.Marks outer machine q n → q = ref

variable {c : Catalog} {outer machine : TypeRef} {q q' : RoutineRef} {t : TypeEntry}
  {m n : Routine} {rest : List RoutineRef}

theorem IsSource.unique (hm : c.IsSource outer machine m) (hn : c.IsSource outer machine n) :
    m = n := by
  obtain ⟨p, hp, -⟩ := hm
  obtain ⟨q, hq, only⟩ := hn
  obtain rfl := only p m hp
  exact Option.some.inj (hp.routine.symm.trans hq.routine)

/-- The listed references to methods that are marked with a state machine. -/
def markedIn (c : Catalog) (t : TypeEntry) (machine : TypeRef) : List RoutineRef :=
  t.methods.filter fun q => (c.routine? q).any (·.machine == some machine)

theorem mem_markedIn_iff (h : c.ListsDeclared outer t) :
    q ∈ c.markedIn t machine ↔ ∃ m, c.Marks outer machine q m := by
  rw [markedIn, List.mem_filter, h.mem_iff]
  constructor
  · rintro ⟨⟨m, hm⟩, marked⟩
    rw [hm.routine, Option.any_some, beq_iff_eq] at marked
    exact ⟨m, hm, marked⟩
  · rintro ⟨m, hm⟩
    refine ⟨⟨m, hm.toDeclares⟩, ?_⟩
    rw [hm.routine, Option.any_some, beq_iff_eq, hm.machine]

/-! ## Outcomes of the search -/

theorem outcome_asyncMethodOf_of_none (ht : c.type? outer = some t)
    (h : c.markedIn t machine = []) :
    (asyncMethodOf c outer machine).outcome = .error (.noAsyncMethod outer machine) := by
  have none : methodsMarked c t machine = [] := by
    rw [Style.methodsMarked_eq]
    exact congrArg (List.filterMap c.routine?) h
  simp only [asyncMethodOf, Catalog.type, ht, Logged.outcome_bind, Logged.outcome_lift, ok_bind,
    none, Logged.outcome_note, Logged.outcome_fail]

theorem outcome_asyncMethodOf_of_many (ht : c.type? outer = some t)
    (h : c.markedIn t machine = q :: q' :: rest) (hq : c.routine? q = some m)
    (hq' : c.routine? q' = some n) :
    (asyncMethodOf c outer machine).outcome =
      .error (.manyAsyncMethods (methodsMarked c t machine).length outer machine) := by
  have many : methodsMarked c t machine = m :: n :: rest.filterMap c.routine? := by
    rw [Style.methodsMarked_eq]
    refine (congrArg (List.filterMap c.routine?) h).trans ?_
    rw [List.filterMap_cons_some hq, List.filterMap_cons_some hq']
  simp only [asyncMethodOf, Catalog.type, ht, Logged.outcome_bind, Logged.outcome_lift, ok_bind,
    many, Logged.outcome_note, Logged.outcome_fail]

/-- If types list what they declare, then the search finds the source of a state machine, or there
is none and it fails. -/
theorem Listed.asyncMethodOf_cases (h : c.Listed) (ht : c.type? outer = some t)
    (machine : TypeRef) :
    (∃ m, (asyncMethodOf c outer machine).outcome = .ok m ∧ c.IsSource outer machine m) ∨
      (∃ e, (asyncMethodOf c outer machine).outcome = .error e ∧ e.kind = .inconsistent) ∧
        ∀ m, ¬ c.IsSource outer machine m := by
  have mem (q : RoutineRef) : q ∈ c.markedIn t machine ↔ ∃ m, c.Marks outer machine q m :=
    mem_markedIn_iff (h.lists outer t ht)
  have increasing : (c.markedIn t machine).Pairwise fun a b => a.index < b.index :=
    (h.lists outer t ht).increasing.filter _
  rcases hl : c.markedIn t machine with _ | ⟨q, _ | ⟨q', rest⟩⟩ <;> rw [hl] at mem increasing
  · right
    refine ⟨⟨_, outcome_asyncMethodOf_of_none ht hl, rfl⟩, fun m ⟨ref, hm, _⟩ => ?_⟩
    exact absurd ((mem ref).2 ⟨m, hm⟩) List.not_mem_nil
  · left
    obtain ⟨m, hm⟩ := (mem q).1 List.mem_cons_self
    refine ⟨m, Style.outcome_asyncMethodOf ht hm.routine hl, q, hm, fun p n hn => ?_⟩
    exact List.mem_singleton.1 ((mem p).2 ⟨n, hn⟩)
  · right
    obtain ⟨m, hm⟩ := (mem q).1 List.mem_cons_self
    obtain ⟨n, hn⟩ := (mem q').1 (List.mem_cons_of_mem _ List.mem_cons_self)
    refine ⟨⟨_, outcome_asyncMethodOf_of_many ht hl hm.routine hn.routine, rfl⟩, ?_⟩
    rintro k ⟨ref, -, only⟩
    -- the two are listed at different positions
    have before : q.index < q'.index := List.rel_of_pairwise_cons increasing List.mem_cons_self
    rw [only q m hm, only q' n hn] at before
    exact Nat.lt_irrefl _ (UInt32.lt_iff_toNat_lt.1 before)

/-- **Types list exactly the methods that they declare.** In a catalog that is assembled from bare
types and from routines that belong to types of the catalog, every type lists by position, each
once, the methods that declare it as theirs, and nothing else. So the method of a state machine is
found exactly if one declared method of the type around it is marked with the machine, and it is
that one; otherwise the search fails as the catalog contradicts itself. -/
theorem Assembled.methods_exact {c : Catalog} (h : Assembled (fun c a => a.Owned c) c)
    (types : c.types.size < UInt32.size) (routines : c.routines.size < UInt32.size) :
    (∀ i t, c.types[i]? = some t →
      t.methods.Pairwise (fun a b => a.index < b.index) ∧
        ∀ ref, ref ∈ t.methods ↔ ∃ m, c.Declares ⟨UInt32.ofNat i⟩ ref m) ∧
    ∀ outer t machine, c.type? outer = some t →
      (∀ m, (asyncMethodOf c outer machine).outcome = .ok m ↔ c.IsSource outer machine m) ∧
        ((∀ m, ¬ c.IsSource outer machine m) →
          ∃ e, (asyncMethodOf c outer machine).outcome = .error e ∧ e.kind = .inconsistent) := by
  have listed := Listed.of_assembled h routines
  constructor
  · intro i t ht
    have bound : i < c.types.size := (Array.getElem?_eq_some_iff.1 ht).1
    have position : (UInt32.ofNat i).toNat = i :=
      UInt32.toNat_ofNat_of_lt' (Nat.lt_trans bound types)
    have found : c.type? ⟨UInt32.ofNat i⟩ = some t := by
      rw [type?, position, ht]
    exact ⟨(listed.lists _ t found).increasing, (listed.lists _ t found).mem_iff⟩
  · intro outer t machine ht
    rcases listed.asyncMethodOf_cases ht machine with ⟨m, found, source⟩ | ⟨⟨e, failed, he⟩, none⟩
    · refine ⟨fun n => ⟨fun hn => ?_, fun hn => ?_⟩, fun none => absurd source (none m)⟩
      · exact Except.ok.inj (found.symm.trans hn) ▸ source
      · rw [found, source.unique hn]
    · refine ⟨fun n => ⟨fun hn => ?_, fun hn => absurd hn (none n)⟩, fun _ => ⟨e, failed, he⟩⟩
      cases failed.symm.trans hn

/-- A type with two methods, one of which is marked with the state machine that is nested in the
type, and with a constructor. -/
def fetcherAdditions : List Addition :=
  [.built (.frameworkType "Void"), .built (.namedType (some "App") "Fetcher"),
    .built (.nestedType ⟨1⟩ "<Fetch>d__0"), .built (.routine (.constructor ⟨1⟩ false)),
    .built (.routine (.method "Run" ⟨1⟩ ⟨0⟩)), .built (.routine (.method "MoveNext" ⟨2⟩ ⟨0⟩)),
    .built (.routine { Routine.method "Fetch" ⟨1⟩ ⟨0⟩ with machine := some ⟨2⟩ }),
    .given (.ofName none "Program")]

/-- The catalog with these types and routines. -/
def fetcherCatalog : Catalog := fetcherAdditions.foldl Addition.apply .empty

theorem methods_fetcherCatalog :
    (Assembled (fun c a => a.Owned c) fetcherCatalog ∧ fetcherCatalog.types.size < UInt32.size ∧
      fetcherCatalog.routines.size < UInt32.size) ∧
    (∃ t, fetcherCatalog.types[1]? = some t ∧ t.methods = [⟨1⟩, ⟨3⟩] ∧
      ∃ m, fetcherCatalog.Declares ⟨1⟩ ⟨3⟩ m) ∧
    ∃ m, (asyncMethodOf fetcherCatalog ⟨1⟩ ⟨2⟩).outcome = .ok m ∧ m.name = "Fetch" := by
  have assembled : Assembled (fun c a => a.Owned c) fetcherCatalog := by
    simp only [fetcherCatalog, fetcherAdditions, List.foldl_cons, List.foldl_nil]
    refine .add (.add (.add (.add (.add (.add (.add (.add .empty ?_) ?_) ?_) ?_) ?_) ?_) ?_) ?_ <;>
      refine ⟨fun r h => ?_, fun t h => ?_⟩ <;> cases h <;> decide +kernel
  have types : fetcherCatalog.types.size < UInt32.size := by decide +kernel
  have routines : fetcherCatalog.routines.size < UInt32.size := by decide +kernel
  obtain ⟨lists, search⟩ := Assembled.methods_exact assembled types routines
  have entry : (fetcherCatalog.types[1]?).map (·.methods) = some [⟨1⟩, ⟨3⟩] := by decide +kernel
  obtain ⟨t, ht, methods⟩ := Option.map_eq_some_iff.1 entry
  obtain ⟨-, mem_iff⟩ := lists 1 t ht
  have declared : ∃ m, fetcherCatalog.Declares ⟨1⟩ ⟨3⟩ m := (mem_iff ⟨3⟩).1 (by simp [methods])
  obtain ⟨found, -⟩ := search ⟨1⟩ t ⟨2⟩ ht
  have marked : fetcherCatalog.Marks ⟨1⟩ ⟨2⟩ ⟨3⟩
      { Routine.method "Fetch" ⟨1⟩ ⟨0⟩ with machine := some ⟨2⟩ } :=
    { routine := by decide +kernel, kind := rfl, declaring := rfl, machine := rfl }
  have source : fetcherCatalog.IsSource ⟨1⟩ ⟨2⟩
      { Routine.method "Fetch" ⟨1⟩ ⟨0⟩ with machine := some ⟨2⟩ } := by
    refine ⟨⟨3⟩, marked, fun q n hn => ?_⟩
    have listed : q ∈ t.methods := (mem_iff q).2 ⟨n, hn.toDeclares⟩
    rw [methods, List.mem_cons, List.mem_singleton] at listed
    rcases listed with rfl | rfl
    · -- the other method is not marked
      have unmarked : (fetcherCatalog.routine? ⟨1⟩).map (·.machine) = some none := by
        decide +kernel
      rw [hn.routine, Option.map_some, hn.machine] at unmarked
      cases unmarked
    · rfl
  exact ⟨⟨assembled, types, routines⟩, ⟨t, ht, methods, declared⟩, _, (found _).2 source, rfl⟩

end ReadableTrace.Catalog
