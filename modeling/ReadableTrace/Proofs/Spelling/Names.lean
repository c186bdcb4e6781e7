import ReadableTrace.Proofs.Outcome
import ReadableTrace.Spelling.Type

/-!
# Spelling by names

The three ways in which an entry is spelled by its names alone: a keyword for the full name, the
simple name of a framework type, or what is left of a name that is taken apart. `NameSpelling`
states them as rules, and `outcome_ofNames_eq_ok_iff` says that these are what `ofNames` computes.
Only the third way can fail, and only at a blank name (`outcome_ofNames_eq_error_iff`).
-/

namespace ReadableTrace.Spelling

open Log Outcome

/-- The name of an entry that has to be taken apart, if it comes to that: the full name, or the
simple name of an entry without one. -/
def decodable? (lead : String) (t : TypeEntry) : Option String :=
  match t.fullName with
  | none => some t.name
  | some full => if (keyword? full).isSome || beginsWith lead full then none else some full

/-- How an entry is spelled by its names. -/
inductive NameSpelling (lead : String) (t : TypeEntry) : String → Prop
  /-- By the keyword for the full name. -/
  | keyword {full word} : t.fullName = some full → (full, word) ∈ keywords →
    NameSpelling lead t word
  /-- By the simple name without its arity suffix, if the full name has no keyword and begins with
  `lead`. -/
  | framework {full} : t.fullName = some full → (∀ word, (full, word) ∉ keywords) →
    lead.toList <+: full.toList → NameSpelling lead t (Name.dropArity t.name)
  /-- By what is left of any other name. -/
  | decoded {raw d} : decodable? lead t = some raw → Name.decode raw = .ok d →
    NameSpelling lead t (ofDecoded d)

variable {lead s : String} {t : TypeEntry} {e : Fault}

/-- No full name has two keywords. -/
theorem keyword?_eq_some_iff {full word : String} :
    keyword? full = some word ↔ (full, word) ∈ keywords := by
  have distinct : (keywords.map (·.1)).Nodup := by decide
  rw [keyword?]
  generalize keywords = l at distinct
  induction l with
  | nil => simp
  | cons p l ih =>
    rw [List.map_cons, List.nodup_cons] at distinct
    rw [List.lookup_cons, List.mem_cons]
    by_cases h : full = p.1
    · subst h
      have hl : (p.1, word) ∉ l := fun hm => distinct.1 (List.mem_map_of_mem (f := (·.1)) hm)
      simp only [beq_self_eq_true, Option.some.injEq, hl, or_false]
      exact ⟨fun h => h ▸ rfl, fun h => (congrArg (·.2) h).symm⟩
    · have hb : (full == p.1) = false := by simpa using h
      simp only [hb, ih distinct.2]
      refine ⟨.inr, fun hm => hm.resolve_left fun hp => h (congrArg (·.1) hp)⟩

theorem keyword?_eq_none_iff {full : String} :
    keyword? full = none ↔ ∀ word, (full, word) ∉ keywords := by
  simp only [Option.eq_none_iff_forall_ne_some, ne_eq, keyword?_eq_some_iff]

theorem decode_eq_error_iff {raw : String} :
    Name.decode raw = .error e ↔ e = .blankName ∧ Text.isBlank raw = true := by
  rw [Name.decode]
  split
  · rename_i h
    simp [h, eq_comm]
  · rename_i h
    simp [h]

theorem decodable?_eq_none_iff :
    decodable? lead t = none ↔ ∃ full, t.fullName = some full ∧
      ((∃ word, (full, word) ∈ keywords) ∨ lead.toList <+: full.toList) := by
  rw [decodable?]
  cases t.fullName with
  | none => simp
  | some full =>
    simp only [Option.some.injEq, exists_eq_left', ← keyword?_eq_some_iff, ← beginsWith_iff,
      ite_eq_left_iff, reduceCtorEq, imp_false, not_not, Bool.or_eq_true, Option.isSome_iff_exists]

/-- The outcome by cases: a keyword, a framework type, or a name to be taken apart. -/
theorem outcome_ofNames :
    (ofNames lead t).outcome =
      match decodable? lead t with
      | some raw => (Name.decode raw).map ofDecoded
      | none => .ok ((t.fullName.bind keyword?).getD (Name.dropArity t.name)) := by
  rw [ofNames, decodable?]
  cases t.fullName with
  | none => rfl
  | some full =>
    cases hk : keyword? full with
    | some word => simp [hk]
    | none =>
      by_cases hb : beginsWith lead full = true
      · simp [hk, hb]
      · simp [hk, hb]

theorem outcome_ofNames_eq_error_iff :
    (ofNames lead t).outcome = .error e ↔
      e = .blankName ∧ ∃ raw, decodable? lead t = some raw ∧ Text.isBlank raw = true := by
  rw [outcome_ofNames]
  cases decodable? lead t with
  | none => simp
  | some raw =>
    have hm : (Name.decode raw).map ofDecoded = .error e ↔ Name.decode raw = .error e :=
      map_eq_error_iff
    simp [hm, decode_eq_error_iff]

theorem outcome_ofNames_eq_ok_iff :
    (ofNames lead t).outcome = .ok s ↔ NameSpelling lead t s := by
  rw [outcome_ofNames]
  constructor
  · intro h
    cases hd : decodable? lead t with
    | some raw =>
      rw [hd] at h
      obtain ⟨d, hr, rfl⟩ := map_eq_ok_iff.1 h
      exact .decoded hd hr
    | none =>
      obtain ⟨full, hf, hk⟩ := decodable?_eq_none_iff.1 hd
      rw [hd, hf, Option.bind_some] at h
      cases hw : keyword? full with
      | some word =>
        rw [hw] at h
        cases h
        exact .keyword hf (keyword?_eq_some_iff.1 hw)
      | none =>
        rw [hw] at h
        cases h
        refine .framework hf (keyword?_eq_none_iff.1 hw) (hk.resolve_left ?_)
        rintro ⟨word, hm⟩
        exact keyword?_eq_none_iff.1 hw word hm
  · rintro (⟨hf, hm⟩ | ⟨hf, hk, hl⟩ | ⟨hd, hr⟩)
    · rw [decodable?_eq_none_iff.2 ⟨_, hf, .inl ⟨_, hm⟩⟩, hf, Option.bind_some,
        keyword?_eq_some_iff.2 hm, Option.getD_some]
    · rw [decodable?_eq_none_iff.2 ⟨_, hf, .inr hl⟩, hf, Option.bind_some,
        keyword?_eq_none_iff.2 hk, Option.getD_none]
    · simp only [hd, hr]
      rfl

end ReadableTrace.Spelling
