import ReadableTrace.Proofs.Catalog.Grounded
import ReadableTrace.Proofs.Frame.Search
import ReadableTrace.Proofs.Spelling.Cycles

/-!
# Catalogs in which every type can be spelled

In a grounded catalog a reference that spelling follows leads to an earlier type
(`Grounded.lt_of_follows`). So no type is on a cycle, nothing that spelling needs is missing, and
every type is spelled (`Grounded.exists_spelling`). For the same reason a walk outwards through the
enclosing types never comes back (`Grounded.fieldOutwards_ne_loop`). Catalogs that were built by
sound steps are such catalogs (`Reached.spelled`).
-/

namespace ReadableTrace

open Log

variable {c : Catalog} {lead : String} {r a q : TypeRef} {t u : TypeEntry}

/-! ## Names that are looked at -/

namespace Spelling

theorem exists_of_definitionOf (hr : c.type? r = some t) {d : Option TypeRef}
    (hd : definitionOf c t d = .ok u) : ∃ p, c.type? p = some u := by
  cases d with
  | none =>
    obtain rfl : t = u := Except.ok.inj hd
    exact ⟨r, hr⟩
  | some d => exact ⟨d, definitionOf_some_eq_ok_iff.1 hd⟩

/-- The entry by whose names a type is spelled is in the catalog. -/
theorem exists_of_named (hu : Named c q u) : ∃ p, c.type? p = some u := by
  cases hu with
  | plain hr => exact ⟨q, hr⟩
  | generic hr _ hd => exact exists_of_definitionOf hr hd

theorem eq_of_decodable? {raw : String} (h : decodable? lead u = some raw) :
    raw = u.fullName.getD u.name := by
  rw [decodable?] at h
  cases hf : u.fullName with
  | none =>
    rw [hf] at h
    exact (Option.some.inj h).symm
  | some full =>
    simp only [hf, Option.ite_none_left_eq_some, Option.some.injEq] at h
    exact h.2.symm

end Spelling

namespace Catalog

open Spelling

theorem exists_type?_of_lt (h : r.index.toNat < c.types.size) : ∃ t, c.type? r = some t :=
  ⟨_, Array.getElem?_eq_getElem h⟩

theorem definition_mem_references {args : List TypeRef} (h : t.shape = .generic (some a) args) :
    a ∈ t.shape.references := by
  simp [h, Shape.references]

namespace Grounded

/-! ## References that are followed -/

theorem lt_of_mem_references (h : c.Grounded) (hr : c.type? r = some t)
    (ha : a ∈ t.shape.references) : a.index.toNat < r.index.toNat :=
  (h.foundedAt hr).shape a ha

theorem lt_of_follows (h : c.Grounded) (hf : Follows c r a) : a.index.toNat < r.index.toNat := by
  cases hf with
  | element hr hs => exact h.lt_of_mem_references hr (by simp [hs, Shape.references])
  | referent hr hs => exact h.lt_of_mem_references hr (by simp [hs, Shape.references])
  | underlying hr hs => exact h.lt_of_mem_references hr (by simp [hs, Shape.references])
  | argument hr hs ha => exact h.lt_of_mem_references hr (by simp [hs, Shape.references, ha])
  | head hr hs hd hu =>
    have referent : a.index.toNat < _ :=
      h.lt_of_mem_references hd (by simp [hu, Shape.references])
    exact Nat.lt_trans referent (h.lt_of_mem_references hr (definition_mem_references hs))

theorem not_onCycle (h : c.Grounded) : ¬ OnCycle c q := by
  have back {p : TypeRef} (hp : Relation.TransGen (Follows c) q p) :
      p.index.toNat < q.index.toNat := by
    induction hp with
    | single hf => exact h.lt_of_follows hf
    | tail _ hf ih => exact Nat.lt_trans (h.lt_of_follows hf) ih
  exact fun hq => Nat.lt_irrefl _ (back hq)

theorem exists_type?_of_reaches (h : c.Grounded) (hr : c.type? r = some t) (hq : Reaches c r q) :
    ∃ u, c.type? q = some u := by
  induction hq with
  | refl => exact ⟨t, hr⟩
  | tail _ hf ih =>
    obtain ⟨u, hu⟩ := ih
    exact exists_type?_of_lt (Nat.lt_trans (h.lt_of_follows hf) (index_lt_of_type? hu))

/-! ## Spelling -/

theorem complete (h : c.Grounded) (hr : c.type? r = some t) : Complete c lead r where
  known _ hq := h.exists_type?_of_reaches hr hq
  definition_known q u d args _ hu hs := by
    have hd := h.lt_of_mem_references hu (definition_mem_references hs)
    exact exists_type?_of_lt (Nat.lt_trans hd (index_lt_of_type? hu))
  not_blank q u raw _ hu hraw := by
    obtain ⟨p, hp⟩ := exists_of_named hu
    rw [eq_of_decodable? hraw]
    exact (h.foundedAt hp).readable

theorem exists_spelling (h : c.Grounded) (hr : c.type? r = some t) (lead : String) :
    ∃ s, (ofType c lead r).outcome = .ok s := by
  cases ho : (ofType c lead r).outcome with
  | ok s => exact ⟨s, rfl⟩
  | error e =>
    obtain ⟨q, rfl⟩ := (h.complete hr).eq_selfReference ho
    obtain ⟨-, hm | hc⟩ := reaches_of_along_selfReference ho
    · cases hm
    · exact absurd hc h.not_onCycle

/-! ## Walking outwards -/

/-- A walk outwards only goes on to earlier types, so it never meets one on its path. -/
theorem fieldOutwards_ne_loop (h : c.Grounded) (target : RoutineRef) (start a b : TypeRef)
    (path : List TypeRef) (r : TypeRef) (hp : ∀ q ∈ path, r.index.toNat < q.index.toNat) :
    (Frame.fieldOutwards c target start path r).outcome ≠ .error (.enclosingLoop a b) := by
  induction path, r using Catalog.walk_induction (c := c) with
  | onPath path r hm => exact absurd (hp r hm) (Nat.lt_irrefl _)
  | unknown path r hm hr =>
    rw [Frame.outcome_fieldOutwards_of_unknown hm hr]
    intro he
    cases he
  | known path r t hm hr ih =>
    rw [Frame.outcome_fieldOutwards hm hr]
    cases Frame.fieldIn? t target with
    | some f =>
      intro he
      cases he
    | none =>
      cases ho : t.enclosing with
      | none =>
        intro he
        cases he
      | some outer =>
        have hlt : outer.index.toNat < r.index.toNat := (h.foundedAt hr).enclosing outer ho
        exact ih outer (List.forall_mem_cons.2 ⟨hlt, fun q hq => Nat.lt_trans hlt (hp q hq)⟩)

end Grounded

/-- **What is built step by step can be spelled.** In a catalog that comes about by builders, each
of which builds on types of the catalog and gives names that are not blank, every type refers to
earlier ones only, in its shape and as its enclosing type. So every type is spelled, whatever the
framework's names begin with, and no search through enclosing types runs into a loop. -/
theorem Reached.spelled {c : Catalog} (h : Reached (fun c s => s.Sound c) c) :
    (∀ (i : Nat) (t : TypeEntry), c.types[i]? = some t →
      (∀ a ∈ t.shape.references, a.index.toNat < i) ∧ ∀ a ∈ t.enclosing, a.index.toNat < i) ∧
    (∀ r t, c.type? r = some t → ∀ lead, ∃ s, (ofType c lead r).outcome = .ok s) ∧
    (∀ target start a b,
      (Frame.fieldHolding c target start).outcome ≠ .error (.enclosingLoop a b)) := by
  have grounded := Grounded.of_reached h
  refine ⟨fun i t ht => ⟨(grounded i t ht).shape, (grounded i t ht).enclosing⟩,
    fun r t hr lead => grounded.exists_spelling hr lead, fun target start a b => ?_⟩
  exact grounded.fieldOutwards_ne_loop target start a b [] start
    fun q hq => absurd hq List.not_mem_nil

/-- Pairs, pairs of numbers, arrays of these, and a type nested in pairs. -/
def pairedCatalog : Catalog :=
  [Step.genericDefinition (some "App") "Pair`2" ["T", "U"], .frameworkType "Int32",
    .genericInstance ⟨2⟩ [⟨3⟩, ⟨3⟩], .array ⟨4⟩ 2, .nestedType ⟨2⟩ "Node"].foldl Step.apply .empty

theorem spelled_pairedCatalog :
    Reached (fun c s => s.Sound c) pairedCatalog ∧
      (pairedCatalog.types.size = 7 ∧
        ∃ s, (ofType pairedCatalog "System." ⟨5⟩).outcome = .ok s) ∧
      (Frame.fieldHolding pairedCatalog ⟨0⟩ ⟨6⟩).outcome ≠ .error (.enclosingLoop ⟨6⟩ ⟨2⟩) := by
  have reached : Reached (fun c s => s.Sound c) pairedCatalog := by
    simp only [pairedCatalog, List.foldl_cons, List.foldl_nil]
    refine .step (.step (.step (.step (.step .empty ?_) ?_) ?_) ?_) ?_ <;>
      exact ⟨by decide +kernel, by decide +kernel⟩
  obtain ⟨-, spelled, noLoop⟩ := Reached.spelled reached
  have known : (pairedCatalog.type? ⟨5⟩).isSome = true := by decide +kernel
  obtain ⟨t, ht⟩ := Option.isSome_iff_exists.1 known
  exact ⟨reached, ⟨by decide +kernel, spelled ⟨5⟩ t ht "System."⟩, noLoop _ _ _ _⟩

end Catalog

end ReadableTrace
