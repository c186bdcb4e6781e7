import ReadableTrace.Proofs.Spelling.References

/-!
# Types that are built from themselves

Where spelling finds all that it needs (`Complete`), it fails exactly if it reaches a type that is
on a cycle, and then it names such a type (`ofType_of_complete`). Reaching a type more than once is
no reason to fail: it is the path from the first type that must not repeat, not the walk.
-/

namespace ReadableTrace.Spelling

open Log Outcome

/-- Spelling the type finds all that it needs: the types that it reaches and their definitions are
in the catalog, and no name that it has to take apart is blank. -/
structure Complete (c : Catalog) (lead : String) (r : TypeRef) : Prop where
  known : ∀ q, Reaches c r q → ∃ t, c.type? q = some t
  definition_known : ∀ q t d args, Reaches c r q → c.type? q = some t →
    t.shape = .generic (some d) args → ∃ u, c.type? d = some u
  not_blank : ∀ q u raw, Reaches c r q → Named c q u → decodable? lead u = some raw →
    Text.isBlank raw = false

variable {c : Catalog} {lead s : String} {path : List TypeRef} {r a q : TypeRef} {e : Fault}

theorem Complete.of_follows (h : Complete c lead r) (ha : Follows c r a) : Complete c lead a where
  known q hq := h.known q (.head ha hq)
  definition_known q t d args hq := h.definition_known q t d args (.head ha hq)
  not_blank q u raw hq := h.not_blank q u raw (.head ha hq)

/-- Where nothing is missing, a type can only fail by referring to itself. -/
theorem Complete.eq_selfReference (h : Complete c lead r)
    (he : (along c lead path r).outcome = .error e) : ∃ q, e = .selfReference q := by
  induction path, r using Catalog.walk_induction (c := c) with
  | onPath path r hp =>
    rw [outcome_along_of_mem hp] at he
    exact ⟨r, (Except.error.inj he).symm⟩
  | unknown path r hp hr =>
    obtain ⟨t, ht⟩ := h.known r .refl
    rw [hr] at ht
    cases ht
  | known path r t hp hr ih =>
    rw [outcome_along hp hr] at he
    rcases ofEntry_eq_error hr he with ⟨a, ha, he⟩ | ⟨u, hu, he⟩ | ⟨d, args, hs, hd, -⟩
    · exact ih a (h.of_follows ha) he
    · obtain ⟨-, raw, hraw, hb⟩ := outcome_ofNames_eq_error_iff.1 he
      rw [h.not_blank r u raw .refl hu hraw] at hb
      cases hb
    · obtain ⟨u, hu⟩ := h.definition_known r t d args .refl hr hs
      rw [hd] at hu
      cases hu

/-- **Cycles are found, and nothing else is taken for one.** Where nothing is missing, a type that
reaches a cycle is refused, with a type on a cycle that it reaches as the reason, and any other type
is spelled. -/
theorem ofType_of_complete {c : Catalog} {lead : String} {r : TypeRef} (h : Complete c lead r) :
    ((∃ q, Reaches c r q ∧ OnCycle c q) →
      ∃ e q, (ofType c lead r).outcome = .error e ∧ e = .selfReference q ∧ e.kind = .inconsistent ∧
        Reaches c r q ∧ OnCycle c q) ∧
    ((∀ q, Reaches c r q → ¬ OnCycle c q) → ∃ s, (ofType c lead r).outcome = .ok s) := by
  cases ho : (ofType c lead r).outcome with
  | ok s =>
    refine ⟨?_, fun _ => ⟨s, rfl⟩⟩
    rintro ⟨q, hq, hc⟩
    exact absurd hc (not_onCycle_of_along_ok ho hq)
  | error e =>
    obtain ⟨q, rfl⟩ := h.eq_selfReference ho
    obtain ⟨hq, hc⟩ := reaches_of_along_selfReference ho
    have hc : OnCycle c q := hc.resolve_left List.not_mem_nil
    exact ⟨fun _ => ⟨_, q, rfl, rfl, rfl, hq, hc⟩, fun hn => absurd hc (hn q hq)⟩

/-! ## A catalog with a cycle behind two arguments -/

/-- The types that are followed from a type, one by one. -/
def followed (c : Catalog) (r : TypeRef) : List TypeRef :=
  match (c.type? r).map TypeEntry.shape with
  | some (.array a _) | some (.byRef a) | some (.nullable a) => [a]
  | some (.generic d args) =>
    match (d.bind c.type?).map TypeEntry.shape with
    | some (.byRef a) => a :: args
    | _ => args
  | _ => []

theorem mem_followed_of_follows (h : Follows c r a) : a ∈ followed c r := by
  rw [followed]
  cases h with
  | element hr hs => simp [hr, hs]
  | referent hr hs => simp [hr, hs]
  | underlying hr hs => simp [hr, hs]
  | argument hr hs ha =>
    simp only [hr, hs, Option.map_some]
    split
    · exact List.mem_cons_of_mem _ ha
    · exact ha
  | head hr hs hd hu => simp [hr, hs, hd, hu]

/-- Types that are closed under following contain all that is reached from one of them. -/
theorem mem_of_reaches {S : List TypeRef} (hr : r ∈ S) (h : ∀ q ∈ S, ∀ a ∈ followed c q, a ∈ S)
    (hq : Reaches c r q) : q ∈ S := by
  induction hq with
  | refl => exact hr
  | tail _ ha ih => exact h _ ih _ (mem_followed_of_follows ha)

/-- A pair of twice the same type, which is an array of nullable values of itself. -/
def loopCatalog : Catalog where
  types := #[{ TypeEntry.ofName (some "App") "Pair`2" with shape := .generic none [⟨1⟩, ⟨1⟩] },
    { TypeEntry.ofName (some "App") "Many" with shape := .array ⟨2⟩ 1 },
    { TypeEntry.ofName (some "App") "Perhaps" with shape := .nullable ⟨1⟩ }]
  routines := #[]

theorem ofType_loopCatalog :
    Complete loopCatalog "System." ⟨0⟩ ∧
      ∃ q, (ofType loopCatalog "System." ⟨0⟩).outcome = .error (.selfReference q) ∧
        OnCycle loopCatalog q := by
  have reached (q : TypeRef) (hq : Reaches loopCatalog ⟨0⟩ q) : q = ⟨0⟩ ∨ q = ⟨1⟩ ∨ q = ⟨2⟩ := by
    have := mem_of_reaches (S := [⟨0⟩, ⟨1⟩, ⟨2⟩]) (by decide) (by decide) hq
    simpa using this
  have complete : Complete loopCatalog "System." ⟨0⟩ := by
    constructor
    · intro q hq
      rcases reached q hq with rfl | rfl | rfl <;> exact ⟨_, rfl⟩
    · intro q t d args hq hr hs
      rcases reached q hq with rfl | rfl | rfl <;> (obtain rfl := Option.some.inj hr; cases hs)
    · intro q u raw hq hu hraw
      rcases reached q hq with rfl | rfl | rfl <;>
        rcases hu with ⟨hr, hs⟩ | ⟨hr, hs, hd, -⟩ <;> (obtain rfl := Option.some.inj hr; cases hs)
      cases hd
      obtain rfl : _ = raw := Option.some.inj hraw
      decide
  have first : Follows loopCatalog ⟨0⟩ ⟨1⟩ := .argument rfl rfl (by decide)
  have cycle : OnCycle loopCatalog ⟨1⟩ := .tail (.single (.element rfl rfl)) (.underlying rfl rfl)
  obtain ⟨e, q, ho, rfl, -, -, hc⟩ :=
    (ofType_of_complete complete).1 ⟨⟨1⟩, .single first, cycle⟩
  exact ⟨complete, q, ho, hc⟩

end ReadableTrace.Spelling
