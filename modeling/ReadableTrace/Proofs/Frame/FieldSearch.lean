import ReadableTrace.Proofs.Frame.Search

/-!
# The innermost field is found

The search for the field of a lambda follows the chain of types that leads outwards from the type
that declares the lambda (`Catalog.outward?`). The chain may end, lead out of the catalog, or come
back to a type on it and go round for ever. `SearchEnds` lists the three ways in which the search
ends on it, and `searchEnds_fieldHolding` says that there is no other.

A type that is met again ends the search, but hides nothing: from there on the chain only repeats
itself, and all of it was looked at (`passes_of_repeats`). So the search finds the innermost field
wherever there is one, and fails as the catalog contradicts itself wherever there is none
(`fieldHolding_innermost`).
-/

namespace ReadableTrace

open Log

namespace Catalog

variable {c : Catalog} {start : TypeRef} {m n : Nat}

/-- The chain that leads outwards from a type: at position zero stands the type itself, and behind
a known type the type around it. -/
def outward? (c : Catalog) (start : TypeRef) : Nat → Option TypeRef
  | 0 => some start
  | n + 1 => (c.outward? start n).bind fun r => (c.type? r).bind (·.enclosing)

/-- Equal places in the chain are followed by equal places. -/
theorem outward?_add_congr (h : c.outward? start m = c.outward? start n) (k : Nat) :
    c.outward? start (m + k) = c.outward? start (n + k) := by
  induction k with
  | zero => exact h
  | succ k ih => rw [← Nat.add_assoc, ← Nat.add_assoc, outward?, outward?, ih]

/-- Behind the end of the chain, or an unknown type on it, there is nothing. -/
theorem type?_outward?_of_le (h : (c.outward? start m).bind c.type? = none) (le : m ≤ n) :
    (c.outward? start n).bind c.type? = none := by
  induction le with
  | refl => exact h
  | @step n _ ih =>
    have next : c.outward? start (n + 1) = ((c.outward? start n).bind c.type?).bind (·.enclosing) :=
      (Option.bind_assoc ..).symm
    rw [next, ih, Option.bind_none, Option.bind_none]

end Catalog

namespace Frame

/-! ## Fields of a type -/

/-- A field is the first of its type, in the order of declaration, that holds a routine. -/
def FirstFieldFor (target : RoutineRef) (t : TypeEntry) (f : Field) : Prop :=
  ∃ front back, t.fields = front ++ f :: back ∧ f.target = some target ∧
    ∀ g ∈ front, g.target ≠ some target

variable {c : Catalog} {target : RoutineRef} {start r : TypeRef} {t : TypeEntry} {f : Field}
  {path : List TypeRef} {m n : Nat} {x : Except Fault (TypeRef × Field)}

theorem fieldIn?_eq_some_iff : fieldIn? t target = some f ↔ FirstFieldFor target t f := by
  simp only [fieldIn?, List.find?_eq_some_iff_append, FirstFieldFor, beq_iff_eq, Bool.not_eq_true',
    beq_eq_false_iff_ne]
  constructor
  · rintro ⟨hf, front, back, ht, hg⟩
    exact ⟨front, back, ht, hf, hg⟩
  · rintro ⟨front, back, ht, hf, hg⟩
    exact ⟨hf, front, back, ht, hg⟩

theorem fieldIn?_eq_none_iff :
    fieldIn? t target = none ↔ ∀ g ∈ t.fields, g.target ≠ some target := by
  simp only [fieldIn?, List.find?_eq_none, beq_iff_eq, ne_eq]

/-! ## Positions of the chain -/

/-- The type at a position of the chain is known and has a field that holds the routine. -/
def HoldsAt (c : Catalog) (target : RoutineRef) (start : TypeRef) (n : Nat) : Prop :=
  ∃ r t, c.outward? start n = some r ∧ c.type? r = some t ∧
    ∃ g ∈ t.fields, g.target = some target

/-- The type at a position of the chain is known, and no field of it holds the routine. -/
def Passes (c : Catalog) (target : RoutineRef) (start : TypeRef) (n : Nat) : Prop :=
  ∃ r t, c.outward? start n = some r ∧ c.type? r = some t ∧
    ∀ g ∈ t.fields, g.target ≠ some target

/-- A field is the first for a routine in its type, and its type is the first on the chain that has
one. -/
def IsInnermost (c : Catalog) (target : RoutineRef) (start r : TypeRef) (f : Field) : Prop :=
  ∃ n t, c.outward? start n = some r ∧ c.type? r = some t ∧ FirstFieldFor target t f ∧
    ∀ m < n, ¬ HoldsAt c target start m

theorem HoldsAt.not_passes (h : HoldsAt c target start n) : ¬ Passes c target start n := by
  rintro ⟨r, t, hr, ht, none⟩
  obtain ⟨r', t', hr', ht', g, hg, hold⟩ := h
  obtain rfl := Option.some.inj (hr.symm.trans hr')
  obtain rfl := Option.some.inj (ht.symm.trans ht')
  exact none g hg hold

theorem FirstFieldFor.holdsAt (h : FirstFieldFor target t f) (hr : c.outward? start n = some r)
    (ht : c.type? r = some t) : HoldsAt c target start n := by
  obtain ⟨front, back, hs, hf, -⟩ := h
  exact ⟨r, t, hr, ht, f, hs ▸ List.mem_append_right front List.mem_cons_self, hf⟩

/-- A chain that comes back to a position repeats what lies between, and goes on for ever. -/
theorem passes_of_repeats (lt : m < n) (back : c.outward? start m = c.outward? start n)
    (passed : ∀ i < n, Passes c target start i) (i : Nat) : Passes c target start i := by
  induction i using Nat.strongRecOn with
  | ind i ih =>
    by_cases hi : i < n
    · exact passed i hi
    · -- one round earlier the chain was at the same type
      have round : c.outward? start (m + (i - n)) = c.outward? start i := by
        rw [Catalog.outward?_add_congr back, Nat.add_sub_cancel' (Nat.le_of_not_lt hi)]
      obtain ⟨r, t, hr, ht⟩ := ih (m + (i - n)) (by omega)
      exact ⟨r, t, round ▸ hr, ht⟩

/-- The chain does not leave the catalog before it comes to a field for the routine. -/
theorem HoldsAt.type?_outward?_ne_none (h : HoldsAt c target start n)
    (passed : ∀ i < m, Passes c target start i) : (c.outward? start m).bind c.type? ≠ none := by
  intro gone
  rcases Nat.lt_or_ge n m with lt | ge
  · exact h.not_passes (passed n lt)
  · have unknown := Catalog.type?_outward?_of_le gone ge
    obtain ⟨r, t, hr, ht, -⟩ := h
    rw [hr, Option.bind_some, ht] at unknown
    cases unknown

/-! ## How the search ends -/

/-- How the search can end. -/
inductive SearchEnds (c : Catalog) (target : RoutineRef) (start : TypeRef) :
    Except Fault (TypeRef × Field) → Prop
  /-- At the first type of the chain that has a field for the routine. -/
  | found {n : Nat} {r : TypeRef} {t : TypeEntry} {f : Field} :
    (∀ m < n, Passes c target start m) → c.outward? start n = some r → c.type? r = some t →
    FirstFieldFor target t f → SearchEnds c target start (.ok (r, f))
  /-- Where the chain ends or leads to an unknown type. -/
  | left {n : Nat} : (∀ m < n, Passes c target start m) → (c.outward? start n).bind c.type? = none →
    SearchEnds c target start (.error (.noDelegateField target))
  /-- Where the chain is back at a type that it has passed. -/
  | looped {m n : Nat} {again : TypeRef} : m < n → c.outward? start m = some again →
    c.outward? start n = some again → (∀ i, Passes c target start i) →
    SearchEnds c target start (.error (.enclosingLoop start again))

/-- The search has come to a type at a position of the chain: it has passed all positions before,
and their types are those on the path. -/
structure Arrived (c : Catalog) (target : RoutineRef) (start : TypeRef) (path : List TypeRef)
    (r : TypeRef) (n : Nat) : Prop where
  at_type : c.outward? start n = some r
  passed : ∀ m < n, Passes c target start m
  mem_path_iff : ∀ q, q ∈ path ↔ ∃ m < n, c.outward? start m = some q

theorem arrived_start : Arrived c target start [] start 0 where
  at_type := rfl
  passed m hm := absurd hm (Nat.not_lt_zero m)
  mem_path_iff q := by simp only [List.not_mem_nil, Nat.not_lt_zero, false_and, exists_false]

namespace Arrived

variable (h : Arrived c target start path r n) (hr : c.type? r = some t)
  (none : fieldIn? t target = none)

include h hr

theorem outward?_succ : c.outward? start (n + 1) = t.enclosing := by
  rw [Catalog.outward?, h.at_type, Option.bind_some, hr, Option.bind_some]

include none

theorem passed_succ : ∀ m < n + 1, Passes c target start m := by
  intro m hm
  rcases Nat.lt_succ_iff_lt_or_eq.1 hm with hm | rfl
  · exact h.passed m hm
  · exact ⟨r, t, h.at_type, hr, fieldIn?_eq_none_iff.1 none⟩

/-- Going on from a type without a field for the routine to the type around it. -/
theorem outwards {outer : TypeRef} (ho : t.enclosing = some outer) :
    Arrived c target start (r :: path) outer (n + 1) where
  at_type := (h.outward?_succ hr).trans ho
  passed := h.passed_succ hr none
  mem_path_iff q := by
    simp only [List.mem_cons, h.mem_path_iff, Nat.lt_succ_iff_lt_or_eq, or_and_right, exists_or,
      exists_eq_left, h.at_type, Option.some.injEq]
    rw [or_comm, eq_comm (a := q)]

end Arrived

/-- From wherever it has come to, the search ends in one of the three ways. -/
theorem searchEnds_fieldOutwards (path : List TypeRef) (r : TypeRef) :
    ∀ n, Arrived c target start path r n →
      SearchEnds c target start (fieldOutwards c target start path r).outcome := by
  induction path, r using Catalog.walk_induction (c := c) with
  | onPath path r hp =>
    intro n h
    obtain ⟨m, hm, hr⟩ := (h.mem_path_iff r).1 hp
    rw [outcome_fieldOutwards_of_mem hp]
    exact .looped hm hr h.at_type (passes_of_repeats hm (hr.trans h.at_type.symm) h.passed)
  | unknown path r hp hr =>
    intro n h
    rw [outcome_fieldOutwards_of_unknown hp hr]
    exact .left h.passed (by rw [h.at_type, Option.bind_some, hr])
  | known path r t hp hr ih =>
    intro n h
    rw [outcome_fieldOutwards hp hr]
    cases hf : fieldIn? t target with
    | some f => exact .found h.passed h.at_type hr (fieldIn?_eq_some_iff.1 hf)
    | none =>
      cases ho : t.enclosing with
      | some outer => exact ih outer (n + 1) (h.outwards hr hf ho)
      | none =>
        exact .left (h.passed_succ hr hf) (by rw [h.outward?_succ hr, ho, Option.bind_none])

theorem searchEnds_fieldHolding (c : Catalog) (target : RoutineRef) (start : TypeRef) :
    SearchEnds c target start (fieldHolding c target start).outcome :=
  searchEnds_fieldOutwards [] start 0 arrived_start

/-- A search does not go past a field for the routine. -/
theorem SearchEnds.exists_ok (h : SearchEnds c target start x) (holds : HoldsAt c target start n) :
    ∃ p, x = .ok p := by
  cases h with
  | found => exact ⟨_, rfl⟩
  | left passed gone => exact absurd gone (holds.type?_outward?_ne_none passed)
  | looped _ _ _ passed => exact absurd (passed n) holds.not_passes

/-- A search that ends does so at the innermost field, if the chain has a field for the routine. -/
theorem SearchEnds.eq_ok (h : SearchEnds c target start x)
    (inner : IsInnermost c target start r f) : x = .ok (r, f) := by
  obtain ⟨n, t, hr, ht, hf, before⟩ := inner
  have holds := hf.holdsAt hr ht
  obtain ⟨p, rfl⟩ := h.exists_ok holds
  cases h with
  | @found n' r' t' f' passed hr' ht' hf' =>
    have same : n' = n := by
      rcases Nat.lt_trichotomy n' n with lt | eq | gt
      · exact absurd (hf'.holdsAt hr' ht') (before n' lt)
      · exact eq
      · exact absurd (passed n gt) holds.not_passes
    subst same
    obtain rfl := Option.some.inj (hr.symm.trans hr')
    obtain rfl := Option.some.inj (ht.symm.trans ht')
    rw [← fieldIn?_eq_some_iff] at hf hf'
    obtain rfl := Option.some.inj (hf.symm.trans hf')
    rfl

/-- **The search ends, and at the innermost field if there is one.** On every chain, whether it
ends, leads out of the catalog or comes back to itself further out, the search finds a field if and
only if it is the first for the routine in the first type of the chain that has one, and it finds
one as soon as some type of the chain has one. Otherwise it fails as the catalog contradicts itself:
where the chain leaves the catalog, because no field holds the routine, and where it does not,
because of a type that the chain comes back to. -/
theorem fieldHolding_innermost (c : Catalog) (target : RoutineRef) (start : TypeRef) :
    (∀ r f, (fieldHolding c target start).outcome = .ok (r, f) ↔ IsInnermost c target start r f) ∧
    ((∃ n, HoldsAt c target start n) → ∃ p, (fieldHolding c target start).outcome = .ok p) ∧
    ((∀ n, ¬ HoldsAt c target start n) →
      ∃ e, (fieldHolding c target start).outcome = .error e ∧ e.kind = .inconsistent ∧
        ((∃ n, (c.outward? start n).bind c.type? = none) → e = .noDelegateField target) ∧
        ((∀ n, (c.outward? start n).bind c.type? ≠ none) →
          ∃ m n again, m < n ∧ c.outward? start m = some again ∧ c.outward? start n = some again ∧
            e = .enclosingLoop start again)) := by
  have ends := searchEnds_fieldHolding c target start
  refine ⟨fun r f => ⟨fun h => ?_, ends.eq_ok⟩, fun ⟨n, holds⟩ => ends.exists_ok holds,
    fun none => ?_⟩
  · rw [h] at ends
    obtain ⟨passed, hr, ht, hf⟩ := ends
    exact ⟨_, _, hr, ht, hf, fun m hm holds => holds.not_passes (passed m hm)⟩
  · generalize (fieldHolding c target start).outcome = x at ends
    cases ends with
    | found _ hr ht hf => exact absurd (hf.holdsAt hr ht) (none _)
    | left _ gone => exact ⟨_, rfl, rfl, fun _ => rfl, fun known => absurd gone (known _)⟩
    | looped lt hm hn passed =>
      refine ⟨_, rfl, rfl, fun ⟨i, gone⟩ => ?_, fun _ => ⟨_, _, _, lt, hm, hn, rfl⟩⟩
      obtain ⟨r, t, hr, ht, -⟩ := passed i
      rw [hr, Option.bind_some, ht] at gone
      cases gone

/-! ## A chain that goes round -/

/-- Delegates in the type around a closure. Two of them hold the same lambda. -/
def jobFields : List Field :=
  [⟨"Idle", ⟨3⟩, none⟩, ⟨"First", ⟨3⟩, some ⟨0⟩⟩, ⟨"Second", ⟨3⟩, some ⟨0⟩⟩]

/-- A closure in a type that stands in another, which is said to stand in the first; and a closure
in a type that is not there. -/
def roundCatalog : Catalog where
  types := #[{ TypeEntry.ofName (some "App") "Worker+Jobs+<>c" with enclosing := some ⟨1⟩ },
    { TypeEntry.ofName (some "App") "Worker+Jobs" with enclosing := some ⟨2⟩, fields := jobFields },
    { TypeEntry.ofName (some "App") "Worker" with
      enclosing := some ⟨1⟩, fields := [⟨"Last", ⟨3⟩, some ⟨0⟩⟩] },
    { TypeEntry.ofName (some "App") "Lost+<>c" with enclosing := some ⟨7⟩ }]
  routines := #[]

theorem not_holdsAt_of_types (h : ∀ t ∈ c.types, ∀ g ∈ t.fields, g.target ≠ some target) (n : Nat) :
    ¬ HoldsAt c target start n := by
  rintro ⟨r, t, -, ht, g, hg, hold⟩
  exact h t (Array.mem_of_getElem? ht) g hg hold

/-- The chain from the first closure stays among three types. -/
theorem outward?_roundCatalog (n : Nat) :
    ∃ r ∈ [⟨0⟩, ⟨1⟩, ⟨2⟩], roundCatalog.outward? ⟨0⟩ n = some r := by
  induction n with
  | zero => exact ⟨_, List.mem_cons_self, rfl⟩
  | succ n ih =>
    have closed : ∀ r ∈ [⟨0⟩, ⟨1⟩, ⟨2⟩], ∃ q ∈ ([⟨0⟩, ⟨1⟩, ⟨2⟩] : List TypeRef),
        (roundCatalog.type? r).bind (·.enclosing) = some q := by decide +kernel
    obtain ⟨r, hr, at_type⟩ := ih
    obtain ⟨q, hq, step⟩ := closed r hr
    exact ⟨q, hq, by rw [Catalog.outward?, at_type, Option.bind_some, step]⟩

theorem fieldHolding_roundCatalog :
    (IsInnermost roundCatalog ⟨0⟩ ⟨0⟩ ⟨1⟩ ⟨"First", ⟨3⟩, some ⟨0⟩⟩ ∧
      (fieldHolding roundCatalog ⟨0⟩ ⟨0⟩).outcome = .ok (⟨1⟩, ⟨"First", ⟨3⟩, some ⟨0⟩⟩)) ∧
    ((∀ n, ¬ HoldsAt roundCatalog ⟨1⟩ ⟨0⟩ n) ∧
      (∀ n, (roundCatalog.outward? ⟨0⟩ n).bind roundCatalog.type? ≠ none) ∧
      ∃ again, (fieldHolding roundCatalog ⟨1⟩ ⟨0⟩).outcome = .error (.enclosingLoop ⟨0⟩ again)) ∧
    ((∀ n, ¬ HoldsAt roundCatalog ⟨1⟩ ⟨3⟩ n) ∧
      (roundCatalog.outward? ⟨3⟩ 1).bind roundCatalog.type? = none ∧
      (fieldHolding roundCatalog ⟨1⟩ ⟨3⟩).outcome = .error (.noDelegateField ⟨1⟩)) := by
  have inner : IsInnermost roundCatalog ⟨0⟩ ⟨0⟩ ⟨1⟩ ⟨"First", ⟨3⟩, some ⟨0⟩⟩ := by
    refine ⟨1, _, rfl, rfl, ⟨[⟨"Idle", ⟨3⟩, none⟩], _, rfl, rfl, by simp⟩, fun m hm => ?_⟩
    obtain rfl : m = 0 := by omega
    rintro ⟨r, t, hr, ht, g, hg, -⟩
    obtain rfl := Option.some.inj hr
    obtain rfl := Option.some.inj ht
    exact absurd hg List.not_mem_nil
  have unheld : ∀ t ∈ roundCatalog.types, ∀ g ∈ t.fields, g.target ≠ some ⟨1⟩ := by decide +kernel
  have known : ∀ n, (roundCatalog.outward? ⟨0⟩ n).bind roundCatalog.type? ≠ none := by
    intro n
    have all : ∀ r ∈ ([⟨0⟩, ⟨1⟩, ⟨2⟩] : List TypeRef), roundCatalog.type? r ≠ none := by
      decide +kernel
    obtain ⟨r, hr, at_type⟩ := outward?_roundCatalog n
    rw [at_type, Option.bind_some]
    exact all r hr
  refine ⟨⟨inner, ((fieldHolding_innermost _ _ _).1 _ _).2 inner⟩,
    ⟨not_holdsAt_of_types unheld, known, ?_⟩, not_holdsAt_of_types unheld, rfl, ?_⟩
  · obtain ⟨e, he, -, -, loops⟩ :=
      (fieldHolding_innermost roundCatalog ⟨1⟩ ⟨0⟩).2.2 (not_holdsAt_of_types unheld)
    obtain ⟨-, -, again, -, -, -, rfl⟩ := loops known
    exact ⟨again, he⟩
  · obtain ⟨e, he, -, leaves, -⟩ :=
      (fieldHolding_innermost roundCatalog ⟨1⟩ ⟨3⟩).2.2 (not_holdsAt_of_types unheld)
    rw [he, leaves ⟨1, rfl⟩]

end Frame

end ReadableTrace
