import ReadableTrace.Proofs.Spelling.Composition
import ReadableTrace.Proofs.Spelling.Grounded

/-!
# Types that are built on themselves through definitions

Besides its arguments, a shape refers to what a type is built on: the element of an array, the
values of a nullable type, what a type of references refers to, and the definition of a generic type
(`BuildsOn`). Spelling goes on to a definition only to look through it, if it is a type of
references; of any other definition it reads the names (`LooksThrough`).

* Where nothing is missing, a type that is built on itself is refused if every definition on the way
  is looked through (`ofType_of_looksThrough`).
* A definition whose names are read ends the walk. So a type that is its own definition is spelled,
  even though it is built on itself (`ofType_selfDefinedCatalog`).
* Nothing is missing for any type of a catalog without gaps (`Closed.complete`).
-/

namespace ReadableTrace.Spelling

open Log Outcome

/-- What a type is built on. -/
inductive BuildsOn (c : Catalog) : TypeRef → TypeRef → Prop
  /-- An array on its element. -/
  | element {r a t n} : c.type? r = some t → t.shape = .array a n → BuildsOn c r a
  /-- A type of references on what they refer to. -/
  | referent {r a t} : c.type? r = some t → t.shape = .byRef a → BuildsOn c r a
  /-- A nullable type on the type of its values. -/
  | underlying {r a t} : c.type? r = some t → t.shape = .nullable a → BuildsOn c r a
  /-- A generic type on its definition. -/
  | definition {r d t args} : c.type? r = some t → t.shape = .generic (some d) args →
    BuildsOn c r d

/-- One type is built on the other, which is a type of references if it is the definition. -/
structure LooksThrough (c : Catalog) (r a : TypeRef) : Prop where
  buildsOn : BuildsOn c r a
  byRef {t args} : c.type? r = some t → t.shape = .generic (some a) args →
    ∃ u e, c.type? a = some u ∧ u.shape = .byRef e

variable {c : Catalog} {lead : String} {r a e : TypeRef} {t : TypeEntry}

/-! ## Catalogs without gaps -/

/-- Every reference in the shape of a type leads to a type, and no type has a blank name. -/
structure Closed (c : Catalog) : Prop where
  known : ∀ u ∈ c.types.toList, ∀ a ∈ u.shape.references, (c.type? a).isSome = true
  readable : ∀ u ∈ c.types.toList, Text.isBlank (u.fullName.getD u.name) = false

theorem mem_types_of_type? (hr : c.type? r = some t) : t ∈ c.types.toList :=
  Array.mem_toList_iff.2 (Array.mem_of_getElem? hr)

theorem Closed.exists_type? (h : Closed c) (hr : c.type? r = some t)
    (ha : a ∈ t.shape.references) : ∃ u, c.type? a = some u :=
  Option.isSome_iff_exists.1 (h.known t (mem_types_of_type? hr) a ha)

/-- What is followed stands in the shape of some type. -/
theorem exists_mem_references_of_follows (h : Follows c r a) :
    ∃ q u, c.type? q = some u ∧ a ∈ u.shape.references := by
  cases h with
  | element hr hs => exact ⟨_, _, hr, by simp [hs, Shape.references]⟩
  | referent hr hs => exact ⟨_, _, hr, by simp [hs, Shape.references]⟩
  | underlying hr hs => exact ⟨_, _, hr, by simp [hs, Shape.references]⟩
  | argument hr hs ha => exact ⟨_, _, hr, by simp [hs, Shape.references, ha]⟩
  | head _ _ hd hu => exact ⟨_, _, hd, by simp [hu, Shape.references]⟩

/-- In a catalog without gaps, nothing that spelling needs is missing. -/
theorem Closed.complete (h : Closed c) (hr : c.type? r = some t) : Complete c lead r where
  known q hq := by
    rcases hq.cases_tail with rfl | ⟨p, -, hf⟩
    · exact ⟨t, hr⟩
    · obtain ⟨p, u, hp, ha⟩ := exists_mem_references_of_follows hf
      exact h.exists_type? hp ha
  definition_known q u d args _ hu hs := h.exists_type? hu (Catalog.definition_mem_references hs)
  not_blank q u raw _ hu hraw := by
    obtain ⟨p, hp⟩ := exists_of_named hu
    rw [eq_of_decodable? hraw]
    exact h.readable u (mem_types_of_type? hp)

/-! ## Looking through -/

theorem BuildsOn.eq_of_byRef (h : BuildsOn c r a) (hr : c.type? r = some t)
    (hs : t.shape = .byRef e) : a = e := by
  cases h with
  | referent hr' hs' =>
    obtain rfl := Option.some.inj (hr.symm.trans hr')
    exact Shape.byRef.inj (hs'.symm.trans hs)
  | element hr' hs' | underlying hr' hs' | definition hr' hs' =>
    obtain rfl := Option.some.inj (hr.symm.trans hr')
    cases hs.symm.trans hs'

theorem Follows.eq_of_byRef (h : Follows c r a) (hr : c.type? r = some t)
    (hs : t.shape = .byRef e) : a = e := by
  have ha := mem_followed_of_follows h
  rw [followed, hr, Option.map_some, hs] at ha
  exact List.mem_singleton.1 ha

/-- What is looked through is followed, or it is a type of references behind which spelling goes
on. -/
theorem LooksThrough.follows_or_byRef (h : LooksThrough c r a) :
    Follows c r a ∨ ∃ u e, c.type? a = some u ∧ u.shape = .byRef e ∧ Follows c r e := by
  cases h.buildsOn with
  | element hr hs => exact .inl (.element hr hs)
  | referent hr hs => exact .inl (.referent hr hs)
  | underlying hr hs => exact .inl (.underlying hr hs)
  | definition hr hs =>
    obtain ⟨u, e, hu, he⟩ := h.byRef hr hs
    exact .inr ⟨u, e, hu, he, .head hr hs hu he⟩

/-- Looking through types one after the other reaches the last one, unless this is a definition:
then it reaches what the definition refers to. -/
theorem reaches_or_byRef_of_looksThrough (h : Relation.ReflTransGen (LooksThrough c) r a) :
    Reaches c r a ∨ ∃ u e, c.type? a = some u ∧ u.shape = .byRef e ∧
      Relation.TransGen (Follows c) r e := by
  induction h with
  | refl => exact .inl .refl
  | tail _ hb ih =>
    rcases ih with ha | ⟨u, e, hu, he, hr⟩
    · rcases hb.follows_or_byRef with hb | ⟨u, e, hu, he, hb⟩
      · exact .inl (ha.tail hb)
      · exact .inr ⟨u, e, hu, he, .tail' ha hb⟩
    · rw [hb.buildsOn.eq_of_byRef hu he]
      exact .inl hr.to_reflTransGen

/-- If a type that is followed from `r` leads back to `r`, then `r` reaches a cycle. -/
theorem exists_onCycle_of_follows (ha : Follows c r a)
    (h : Relation.ReflTransGen (LooksThrough c) a r) : ∃ q, Reaches c r q ∧ OnCycle c q := by
  rcases reaches_or_byRef_of_looksThrough h with h | ⟨t, e, hr, hs, h⟩
  · exact ⟨r, .refl, .head' ha h⟩
  · obtain rfl := ha.eq_of_byRef hr hs
    exact ⟨a, .single ha, h⟩

/-- The cycle of a type that looks through itself need not pass through the type: where this is a
definition, spelling goes past it. -/
theorem exists_onCycle_of_looksThrough (h : Relation.TransGen (LooksThrough c) r r) :
    ∃ q, Reaches c r q ∧ OnCycle c q := by
  obtain ⟨a, ha, hback⟩ := Relation.TransGen.head'_iff.1 h
  rcases ha.follows_or_byRef with hf | ⟨u, e, hu, he, hf⟩
  · exact exists_onCycle_of_follows hf hback
  · refine exists_onCycle_of_follows hf ?_
    rcases hback.cases_head with rfl | ⟨b, hb, hback⟩
    · rw [ha.buildsOn.eq_of_byRef hu he]
    · rwa [← hb.buildsOn.eq_of_byRef hu he]

/-- **Types that are built on themselves are refused.** Where nothing is missing, a type from which
one looks through others back to itself is refused as one that refers to itself. -/
theorem ofType_of_looksThrough {c : Catalog} {lead : String} {r : TypeRef}
    (h : Complete c lead r) (hr : Relation.TransGen (LooksThrough c) r r) :
    ∃ e q, (ofType c lead r).outcome = .error e ∧ e = .selfReference q ∧
      e.kind = .inconsistent ∧ Reaches c r q ∧ OnCycle c q := by
  obtain ⟨q, hq, hc⟩ := exists_onCycle_of_looksThrough hr
  cases ho : (ofType c lead r).outcome with
  | ok s => exact absurd hc (not_onCycle_of_along_ok ho hq)
  | error e =>
    obtain ⟨p, rfl⟩ := h.eq_selfReference ho
    obtain ⟨hp, hc⟩ := reaches_of_along_selfReference ho
    exact ⟨_, p, rfl, rfl, rfl, hp, hc.resolve_left List.not_mem_nil⟩

/-- A type whose definition refers to the arrays of the type. -/
def referredCatalog : Catalog where
  types := #[{ TypeEntry.ofName (some "App") "Loop" with shape := .generic (some ⟨1⟩) [] },
    { TypeEntry.ofName (some "App") "Loop[]&" with shape := .byRef ⟨2⟩ },
    { TypeEntry.ofName (some "App") "Loop[]" with shape := .array ⟨0⟩ 1 }]
  routines := #[]

theorem ofType_referredCatalog :
    Complete referredCatalog "System." ⟨0⟩ ∧
      Relation.TransGen (LooksThrough referredCatalog) ⟨0⟩ ⟨0⟩ ∧
      ∃ q, (ofType referredCatalog "System." ⟨0⟩).outcome = .error (.selfReference q) := by
  have closed : Closed referredCatalog := ⟨by decide +kernel, by decide +kernel⟩
  have complete : Complete referredCatalog "System." ⟨0⟩ := closed.complete rfl
  have definition : LooksThrough referredCatalog ⟨0⟩ ⟨1⟩ :=
    ⟨.definition rfl rfl, fun _ _ => ⟨_, _, rfl, rfl⟩⟩
  have referent : LooksThrough referredCatalog ⟨1⟩ ⟨2⟩ :=
    ⟨.referent rfl rfl, fun hr hs => by obtain rfl := Option.some.inj hr; cases hs⟩
  have element : LooksThrough referredCatalog ⟨2⟩ ⟨0⟩ :=
    ⟨.element rfl rfl, fun hr hs => by obtain rfl := Option.some.inj hr; cases hs⟩
  have around := ((Relation.TransGen.single definition).tail referent).tail element
  obtain ⟨e, q, ho, rfl, -⟩ := ofType_of_looksThrough complete around
  exact ⟨complete, around, q, ho⟩

/-! ## A type that is its own definition -/

/-- A generic type without arguments that is its own definition. -/
def selfDefinedType : TypeEntry :=
  { TypeEntry.ofName (some "App") "Loop" with shape := .generic (some ⟨0⟩) [] }

/-- A catalog with this type only. -/
def selfDefinedCatalog : Catalog := ⟨#[selfDefinedType], #[]⟩

/-- The type is spelled, although it is built on itself and the catalog has no gaps. -/
theorem ofType_selfDefinedCatalog :
    Closed selfDefinedCatalog ∧ Complete selfDefinedCatalog "System." ⟨0⟩ ∧
      Relation.TransGen (BuildsOn selfDefinedCatalog) ⟨0⟩ ⟨0⟩ ∧
      (ofType selfDefinedCatalog "System." ⟨0⟩).outcome = .ok "App.Loop<>" := by
  have closed : Closed selfDefinedCatalog := ⟨by decide +kernel, by decide +kernel⟩
  have taken : Name.decode "App.Loop" = .ok ⟨"App.Loop", none⟩ := by decide
  have head : HeadSpelling selfDefinedCatalog "System." selfDefinedType "App.Loop" :=
    .decoded (show decodable? "System." selfDefinedType = some "App.Loop" by decide) taken
  have spelled : (ofType selfDefinedCatalog "System." ⟨0⟩).outcome = .ok "App.Loop<>" :=
    (ofType_iff_of_generic (t := selfDefinedType) rfl rfl).2
      ⟨selfDefinedType, _, _, rfl, head, .nil, by decide⟩
  exact ⟨closed, closed.complete (t := selfDefinedType) rfl, .single (.definition rfl rfl), spelled⟩

end ReadableTrace.Spelling
