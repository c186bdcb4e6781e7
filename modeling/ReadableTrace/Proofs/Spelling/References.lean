import ReadableTrace.Proofs.Spelling.Names
import ReadableTrace.Proofs.Spelling.Step
import Mathlib.Logic.Relation

/-!
# The references that spelling follows

`Follows c r a` says that spelling `r` goes on to `a`: from an array, a nullable type or a type of
references to what it is built on, from a generic type to its arguments, and also to what its
definition refers to if the definition is a type of references. What is reached that way is
`Reaches`, and a type that is reached from itself by at least one reference is `OnCycle`.

* The path only matters through the types that are reached (`outcome_along_congr`).
* A type that can be spelled reaches no type on its path (`not_mem_of_along_ok`) and none that is on
  a cycle (`not_onCycle_of_along_ok`).
* So a type that is followed from `r` is spelled behind `r` exactly if it is spelled on its own, and
  then alike (`outcome_along_singleton_iff`).
-/

namespace ReadableTrace.Spelling

open Log Outcome

/-- A reference that spelling follows. -/
inductive Follows (c : Catalog) : TypeRef → TypeRef → Prop
  /-- From an array to its element. -/
  | element {r a t n} : c.type? r = some t → t.shape = .array a n → Follows c r a
  /-- From a type of references to what they refer to. -/
  | referent {r a t} : c.type? r = some t → t.shape = .byRef a → Follows c r a
  /-- From a nullable type to the type of its values. -/
  | underlying {r a t} : c.type? r = some t → t.shape = .nullable a → Follows c r a
  /-- From a generic type to each of its arguments. -/
  | argument {r a t d args} : c.type? r = some t → t.shape = .generic d args → a ∈ args →
    Follows c r a
  /-- From a generic type to what its definition refers to. -/
  | head {r a t d args u} : c.type? r = some t → t.shape = .generic (some d) args →
    c.type? d = some u → u.shape = .byRef a → Follows c r a

/-- The second type is reached from the first by references that spelling follows. -/
abbrev Reaches (c : Catalog) : TypeRef → TypeRef → Prop := Relation.ReflTransGen (Follows c)

/-- The type is reached from itself by at least one reference. -/
abbrev OnCycle (c : Catalog) (r : TypeRef) : Prop := Relation.TransGen (Follows c) r r

/-- The type is spelled by the names of an entry: its own, or that of its definition. -/
inductive Named (c : Catalog) : TypeRef → TypeEntry → Prop
  | plain {r t} : c.type? r = some t → t.shape = .plain → Named c r t
  | generic {r t d args u} : c.type? r = some t → t.shape = .generic d args →
    definitionOf c t d = .ok u → (∀ a, u.shape ≠ .byRef a) → Named c r u

variable {c : Catalog} {lead s : String} {path path' : List TypeRef} {r a q : TypeRef}
  {t : TypeEntry} {f g : TypeRef → Except Fault String} {e : Fault}

/-! ## One step -/

theorem ofHead_of_byRef {d : TypeEntry} (h : d.shape = .byRef a) : ofHead lead d f = f a := by
  rw [ofHead, h]

theorem ofHead_of_ne_byRef {d : TypeEntry} (h : ∀ a, d.shape ≠ .byRef a) :
    ofHead lead d f = (ofNames lead d).outcome := by
  rw [ofHead]
  split
  · rename_i a ha
    exact absurd ha (h a)
  · rfl

theorem definitionOf_some_eq_ok_iff {d : TypeRef} {u : TypeEntry} :
    definitionOf c t (some d) = .ok u ↔ c.type? d = some u := by
  rw [definitionOf, Catalog.type]
  cases c.type? d <;> simp

theorem type?_eq_none_of_definitionOf {d : Option TypeRef} (h : definitionOf c t d = .error e) :
    ∃ d', d = some d' ∧ c.type? d' = none ∧ e = .unknownType d' := by
  cases d with
  | none => cases h
  | some d =>
    rw [definitionOf, Catalog.type] at h
    cases hk : c.type? d with
    | none =>
      rw [hk] at h
      exact ⟨d, rfl, hk, (Except.error.inj h).symm⟩
    | some u =>
      rw [hk] at h
      cases h

/-- An open generic type is not a type of references, so what a definition refers to is always
followed. -/
theorem Follows.of_definition {d : Option TypeRef} {args : List TypeRef} {u : TypeEntry}
    (hr : c.type? r = some t) (hs : t.shape = .generic d args) (hd : definitionOf c t d = .ok u)
    (hu : u.shape = .byRef a) : Follows c r a := by
  cases d with
  | none =>
    obtain rfl : t = u := Except.ok.inj hd
    rw [hs] at hu
    cases hu
  | some d => exact .head hr hs (definitionOf_some_eq_ok_iff.1 hd) hu

/-- Spelling an entry only asks for the types that are followed. -/
theorem ofEntry_congr (hr : c.type? r = some t) (h : ∀ a, Follows c r a → f a = g a) :
    ofEntry c lead t f = ofEntry c lead t g := by
  rw [ofEntry, ofEntry]
  split
  · rfl
  · rename_i a hs
    exact h a (.referent hr hs)
  · rename_i a hs
    rw [h a (.underlying hr hs)]
  · rename_i a n hs
    rw [h a (.element hr hs)]
  · rename_i d args hs
    have ha : args.mapM f = args.mapM g := mapM_congr fun a ha => h a (.argument hr hs ha)
    rw [ha]
    refine bind_congr_of_ok fun u hd => ?_
    have hh : ofHead lead u f = ofHead lead u g := by
      by_cases hu : ∃ a, u.shape = .byRef a
      · obtain ⟨a, hu⟩ := hu
        rw [ofHead_of_byRef hu, ofHead_of_byRef hu, h a (.of_definition hr hs hd hu)]
      · rw [ofHead_of_ne_byRef (not_exists.1 hu), ofHead_of_ne_byRef (not_exists.1 hu)]
    rw [hh]

/-- An entry is only spelled if all types that are followed are. -/
theorem exists_ok_of_ofEntry_ok (hr : c.type? r = some t) (h : ofEntry c lead t f = .ok s)
    (ha : Follows c r a) : ∃ s', f a = .ok s' := by
  rw [ofEntry] at h
  cases ha with
  | element hr' hs =>
    obtain rfl := Option.some.inj (hr.symm.trans hr')
    rw [hs] at h
    obtain ⟨s', hs', -⟩ := map_eq_ok_iff.1 h
    exact ⟨s', hs'⟩
  | referent hr' hs =>
    obtain rfl := Option.some.inj (hr.symm.trans hr')
    rw [hs] at h
    exact ⟨s, h⟩
  | underlying hr' hs =>
    obtain rfl := Option.some.inj (hr.symm.trans hr')
    rw [hs] at h
    obtain ⟨s', hs', -⟩ := map_eq_ok_iff.1 h
    exact ⟨s', hs'⟩
  | argument hr' hs ha =>
    obtain rfl := Option.some.inj (hr.symm.trans hr')
    simp only [hs, bind_eq_ok_iff] at h
    obtain ⟨u, -, n, -, l, hl, -⟩ := h
    exact exists_mapM_ok_iff.1 ⟨l, hl⟩ a ha
  | head hr' hs hd hu =>
    obtain rfl := Option.some.inj (hr.symm.trans hr')
    simp only [hs, bind_eq_ok_iff, definitionOf_some_eq_ok_iff, hd, Option.some.injEq] at h
    obtain ⟨_, rfl, n, hn, -⟩ := h
    rw [ofHead_of_byRef hu] at hn
    exact ⟨n, hn⟩

/-- A failure to spell an entry is the failure for a type that is followed, or for a name, or the
definition is unknown. -/
theorem ofEntry_eq_error (hr : c.type? r = some t) (h : ofEntry c lead t f = .error e) :
    (∃ a, Follows c r a ∧ f a = .error e) ∨ (∃ u, Named c r u ∧ (ofNames lead u).outcome = .error e)
      ∨ ∃ d args, t.shape = .generic (some d) args ∧ c.type? d = none ∧ e = .unknownType d := by
  rw [ofEntry] at h
  split at h
  · rename_i hs
    exact .inr (.inl ⟨t, .plain hr hs, h⟩)
  · rename_i a hs
    exact .inl ⟨a, .referent hr hs, h⟩
  · rename_i a hs
    exact .inl ⟨a, .underlying hr hs, map_eq_error_iff.1 h⟩
  · rename_i a n hs
    exact .inl ⟨a, .element hr hs, map_eq_error_iff.1 h⟩
  · rename_i d args hs
    simp only [bind_eq_error_iff, pure_ne_error, and_false, exists_false, or_false] at h
    rcases h with hd | ⟨u, hd, hn | ⟨n, -, hl⟩⟩
    · obtain ⟨d, rfl, hk, rfl⟩ := type?_eq_none_of_definitionOf hd
      exact .inr (.inr ⟨d, args, hs, hk, rfl⟩)
    · by_cases hu : ∃ a, u.shape = .byRef a
      · obtain ⟨a, hu⟩ := hu
        rw [ofHead_of_byRef hu] at hn
        exact .inl ⟨a, .of_definition hr hs hd hu, hn⟩
      · rw [ofHead_of_ne_byRef (not_exists.1 hu)] at hn
        exact .inr (.inl ⟨u, .generic hr hs hd (not_exists.1 hu), hn⟩)
    · obtain ⟨front, a, back, rfl, -, ha⟩ := mapM_eq_error_iff.1 hl
      exact .inl ⟨a, .argument hr hs (by simp), ha⟩

/-! ## The whole walk -/

/-- The path only matters through the types that are reached: a type outside the path is spelled
alike, or refused alike, along any two paths that agree on these. -/
theorem outcome_along_congr (h : ∀ q, Reaches c r q → (q ∈ path ↔ q ∈ path')) :
    (along c lead path r).outcome = (along c lead path' r).outcome := by
  induction path, r using Catalog.walk_induction (c := c) generalizing path' with
  | onPath path r hp =>
    rw [outcome_along_of_mem hp, outcome_along_of_mem ((h r .refl).1 hp)]
  | unknown path r hp hr =>
    have hp' : r ∉ path' := fun hm => hp ((h r .refl).2 hm)
    rw [outcome_along_of_unknown hp hr, outcome_along_of_unknown hp' hr]
  | known path r t hp hr ih =>
    have hp' : r ∉ path' := fun hm => hp ((h r .refl).2 hm)
    rw [outcome_along hp hr, outcome_along hp' hr]
    refine ofEntry_congr hr fun a ha => ih a fun q hq => ?_
    rw [List.mem_cons, List.mem_cons, h q (.head ha hq)]

/-- A type that can be spelled reaches no type on its path. -/
theorem not_mem_of_along_ok (h : (along c lead path r).outcome = .ok s) (hq : Reaches c r q) :
    q ∉ path := by
  induction path, r using Catalog.walk_induction (c := c) generalizing s with
  | onPath path r hp =>
    rw [outcome_along_of_mem hp] at h
    cases h
  | unknown path r hp hr =>
    rw [outcome_along_of_unknown hp hr] at h
    cases h
  | known path r t hp hr ih =>
    rw [outcome_along hp hr] at h
    rcases hq.cases_head with rfl | ⟨a, ha, hq⟩
    · exact hp
    · obtain ⟨s', hs'⟩ := exists_ok_of_ofEntry_ok hr h ha
      exact fun hm => ih a hs' hq (List.mem_cons_of_mem r hm)

/-- A type that can be spelled reaches no type that is on a cycle. -/
theorem not_onCycle_of_along_ok (h : (along c lead path r).outcome = .ok s) (hq : Reaches c r q) :
    ¬ OnCycle c q := by
  induction path, r using Catalog.walk_induction (c := c) generalizing s with
  | onPath path r hp =>
    rw [outcome_along_of_mem hp] at h
    cases h
  | unknown path r hp hr =>
    rw [outcome_along_of_unknown hp hr] at h
    cases h
  | known path r t hp hr ih =>
    rw [outcome_along hp hr] at h
    rcases hq.cases_head with rfl | ⟨a, ha, hq⟩
    · -- a cycle through the type itself would lead a followed type back to its own path
      intro hc
      obtain ⟨a, ha, hback⟩ := Relation.TransGen.head'_iff.1 hc
      obtain ⟨s', hs'⟩ := exists_ok_of_ofEntry_ok hr h ha
      exact not_mem_of_along_ok hs' hback List.mem_cons_self
    · obtain ⟨s', hs'⟩ := exists_ok_of_ofEntry_ok hr h ha
      exact ih a hs' hq

/-- A type that is reported as referring to itself is reached, and it is on the path or on a
cycle. -/
theorem reaches_of_along_selfReference
    (h : (along c lead path r).outcome = .error (.selfReference q)) :
    Reaches c r q ∧ (q ∈ path ∨ OnCycle c q) := by
  induction path, r using Catalog.walk_induction (c := c) with
  | onPath path r hp =>
    rw [outcome_along_of_mem hp] at h
    cases h
    exact ⟨.refl, .inl hp⟩
  | unknown path r hp hr =>
    rw [outcome_along_of_unknown hp hr] at h
    cases h
  | known path r t hp hr ih =>
    rw [outcome_along hp hr] at h
    rcases ofEntry_eq_error hr h with ⟨a, ha, he⟩ | ⟨u, -, he⟩ | ⟨d, -, -, -, he⟩
    · obtain ⟨hq, hm⟩ := ih a he
      refine ⟨.head ha hq, ?_⟩
      rcases hm with hm | hc
      · rcases List.mem_cons.1 hm with rfl | hm
        · exact .inr (.head' ha hq)
        · exact .inl hm
      · exact .inr hc
    · obtain ⟨he, -⟩ := outcome_ofNames_eq_error_iff.1 he
      cases he
    · cases he

/-- A type that is followed from `r` is spelled behind `r` exactly if it is spelled on its own. -/
theorem outcome_along_singleton_iff (ha : Follows c r a) :
    (along c lead [r] a).outcome = .ok s ↔ (ofType c lead a).outcome = .ok s := by
  have alike (h : ∀ q, Reaches c a q → q ≠ r) :
      (along c lead [r] a).outcome = (ofType c lead a).outcome :=
    outcome_along_congr fun q hq => by simpa using h q hq
  constructor
  · intro h
    rw [← alike fun q hq => by simpa using not_mem_of_along_ok h hq]
    exact h
  · intro h
    -- if the followed type led back to `r`, then it would be on a cycle itself
    rw [alike fun q hq hqr => not_onCycle_of_along_ok h .refl (.tail' (hqr ▸ hq) ha)]
    exact h

end ReadableTrace.Spelling
