import ReadableTrace.Proofs.Catalog.History

/-!
# Types that build on earlier types

In a grounded catalog every type is built from types in front of it and stands in a type in front of
it, and it has a name that can be read (`Catalog.Grounded`). Every sound step keeps a catalog
grounded (`Grounded.apply`), so a catalog that was built by such steps is (`Grounded.of_reached`).

A step only adds entries at the end of the types, where the references to earlier types point in
front of them, and changes nothing else of a type than its fields and methods.
-/

namespace ReadableTrace

/-- The types that a shape refers to, with the definition of a generic type in front of its
arguments. -/
def Shape.references : Shape → List TypeRef
  | .plain => []
  | .array e _ | .byRef e => [e]
  | .nullable u => [u]
  | .generic d args => d.toList ++ args

/-- The entry can stand at a position: it refers to positions in front of it, and the name by which
it is spelled is not blank. -/
structure TypeEntry.FoundedAt (n : Nat) (t : TypeEntry) : Prop where
  shape : ∀ a ∈ t.shape.references, a.index.toNat < n
  enclosing : ∀ a ∈ t.enclosing, a.index.toNat < n
  readable : Text.isBlank (t.fullName.getD t.name) = false

/-- Every type can stand where it stands. -/
def Catalog.Grounded (c : Catalog) : Prop :=
  ∀ (i : Nat) (t : TypeEntry), c.types[i]? = some t → t.FoundedAt i

/-! ## Names -/

/-- A name behind a namespace is not blank, whatever the namespace. -/
theorem TypeEntry.isBlank_qualified {space : Option String} {name : String}
    (h : Text.isBlank name = false) : Text.isBlank (TypeEntry.qualified space name) = false := by
  cases space with
  | none => exact h
  | some s =>
    rw [TypeEntry.qualified]
    split
    · exact h
    · rw [Text.isBlank_append, h, Bool.and_false]

namespace Catalog

variable {c c' : Catalog} {r : TypeRef} {t : TypeEntry} {space : Option String} {name : String}
  {n : Nat}

/-! ## Growing -/

theorem Grounded.foundedAt (h : c.Grounded) (hr : c.type? r = some t) :
    t.FoundedAt r.index.toNat :=
  h _ t hr

theorem lt_size_of_isSome (h : (c.type? r).isSome = true) : r.index.toNat < c.types.size := by
  obtain ⟨t, ht⟩ := Option.isSome_iff_exists.1 h
  exact index_lt_of_type? ht

theorem grounded_empty : Grounded .empty := by
  intro i t h
  cases h

theorem Grounded.addType (h : c.Grounded) (ht : t.FoundedAt c.types.size) :
    (c.addType t).2.Grounded := by
  intro i u hu
  rw [Catalog.addType, Array.getElem?_push] at hu
  split at hu
  · rename_i hi
    obtain rfl := Option.some.inj hu
    exact hi ▸ ht
  · exact h i u hu

/-- What keeps the shape, the enclosing type and the names of a type may be done to it. -/
theorem Grounded.modifyType {f : TypeEntry → TypeEntry} (h : c.Grounded)
    (hf : ∀ n t, t.FoundedAt n → (f t).FoundedAt n) : (c.modifyType r f).Grounded := by
  intro i u hu
  rw [Catalog.modifyType, Array.getElem?_modify] at hu
  split at hu
  · obtain ⟨t, ht, rfl⟩ := Option.map_eq_some_iff.1 hu
    exact hf i t (h i t ht)
  · exact h i u hu

/-! ## New entries -/

theorem foundedAt_shaped (shape : Shape) (h : Text.isBlank name = false)
    (hs : ∀ a ∈ shape.references, a.index.toNat < n) :
    { TypeEntry.ofName space name with shape := shape }.FoundedAt n where
  shape := hs
  enclosing _ ha := by cases ha
  readable := TypeEntry.isBlank_qualified h

theorem foundedAt_ofName (h : Text.isBlank name = false) :
    (TypeEntry.ofName space name).FoundedAt n :=
  foundedAt_shaped .plain h fun _ ha => absurd ha List.not_mem_nil

theorem foundedAt_parameter (h : Text.isBlank name = false) :
    { TypeEntry.ofName none name with fullName := none }.FoundedAt n where
  shape _ ha := absurd ha List.not_mem_nil
  enclosing _ ha := by cases ha
  readable := h

theorem enclosing_derived {suffix : String} : (c.derived r suffix).enclosing = none := by
  rw [derived]
  cases c.type? r <;> rfl

/-- The name by which a type derived from another is spelled is that of the other with a suffix, so
it can be read if that can. -/
theorem readable_derived {suffix : String} (h : c.Grounded) (hr : (c.type? r).isSome = true) :
    Text.isBlank ((c.derived r suffix).fullName.getD (c.derived r suffix).name) = false := by
  obtain ⟨t, ht⟩ := Option.isSome_iff_exists.1 hr
  have read : (c.derived r suffix).fullName.getD (c.derived r suffix).name =
      t.fullName.getD t.name ++ suffix := by
    rw [derived, ht]
    dsimp only [TypeEntry.ofName]
    cases t.fullName <;> rfl
  rw [read, Text.isBlank_append, (h.foundedAt ht).readable, Bool.false_and]

/-- A type with names from another and a shape over earlier types can be added. -/
theorem foundedAt_derived {suffix : String} {shape : Shape} (h : c.Grounded)
    (hr : (c.type? r).isSome = true) (hs : ∀ a ∈ shape.references, a.index.toNat < n) :
    { c.derived r suffix with shape := shape }.FoundedAt n where
  shape := hs
  enclosing a ha := by
    have hd : a ∈ (c.derived r suffix).enclosing := ha
    rw [enclosing_derived] at hd
    cases hd
  readable := readable_derived h hr

/-! ## Builders -/

theorem Grounded.addFrameworkType (h : c.Grounded) (hn : Text.isBlank name = false) :
    (c.addFrameworkType name).2.Grounded := by
  rw [Catalog.addFrameworkType]
  cases c.findType? (frameworkSpace ++ "." ++ name) with
  | some r => exact h
  | none => exact h.addType (foundedAt_ofName hn)

theorem Grounded.addNestedType {outer : TypeRef} (h : c.Grounded)
    (ho : (c.type? outer).isSome = true) (hn : Text.isBlank name = false) :
    (c.addNestedType outer name).2.Grounded := by
  refine h.addType ⟨fun _ ha => absurd ha List.not_mem_nil, ?_, ?_⟩
  · intro a ha
    obtain rfl : outer = a := Option.some.inj ha
    exact lt_size_of_isSome ho
  · dsimp only
    cases ((c.type? outer).bind (·.fullName)) with
    | none => exact hn
    | some full => rw [Option.map_some, Option.getD_some, Text.isBlank_append, hn, Bool.and_false]

theorem Grounded.addGenericParameters {names : List String} (h : c.Grounded)
    (hn : ∀ name ∈ names, Text.isBlank name = false) :
    (c.addGenericParameters names).2.Grounded ∧
      c.types.size ≤ (c.addGenericParameters names).2.types.size ∧
      ∀ a ∈ (c.addGenericParameters names).1,
        a.index.toNat < (c.addGenericParameters names).2.types.size := by
  induction names generalizing c with
  | nil => exact ⟨h, Nat.le_refl _, fun _ ha => absurd ha List.not_mem_nil⟩
  | cons name names ih =>
    rw [List.forall_mem_cons] at hn
    obtain ⟨hg, hle, hlt⟩ := ih (h.addType (foundedAt_parameter hn.1)) hn.2
    have grown : c.types.size < (c.addGenericParameters (name :: names)).2.types.size := by
      refine Nat.lt_of_lt_of_le ?_ hle
      simp [Catalog.addType]
    refine ⟨hg, Nat.le_of_lt grown, List.forall_mem_cons.2 ⟨Nat.lt_of_le_of_lt ?_ grown, hlt⟩⟩
    -- a position that does not fit into a reference is cut down
    exact UInt32.toNat_ofNat' ▸ Nat.mod_le _ _

theorem Grounded.addGenericDefinition {names : List String} (h : c.Grounded)
    (hn : Text.isBlank name = false) (hp : ∀ name ∈ names, Text.isBlank name = false) :
    (c.addGenericDefinition space name names).2.Grounded := by
  obtain ⟨hg, -, hlt⟩ := h.addGenericParameters hp
  exact hg.addType (foundedAt_shaped _ hn hlt)

theorem Grounded.addGenericInstance {d : TypeRef} {args : List TypeRef} (h : c.Grounded)
    (hd : (c.type? d).isSome = true) (ha : ∀ a ∈ args, (c.type? a).isSome = true) :
    (c.addGenericInstance d args).2.Grounded := by
  refine h.addType ⟨?_, ?_, readable_derived h hd⟩
  · show ∀ a ∈ d :: args, _
    exact List.forall_mem_cons.2
      ⟨lt_size_of_isSome hd, fun a hm => lt_size_of_isSome (ha a hm)⟩
  · -- the instance stands where its definition stands, which is in front of the definition
    intro a he
    obtain ⟨t, ht, he⟩ := Option.bind_eq_some_iff.1 he
    exact Nat.lt_trans ((h.foundedAt ht).enclosing a he) (index_lt_of_type? ht)

theorem Grounded.addArray {e : TypeRef} {rank : UInt32} (h : c.Grounded)
    (he : (c.type? e).isSome = true) : (c.addArray e rank).2.Grounded :=
  h.addType (foundedAt_derived h he (by simpa [Shape.references] using lt_size_of_isSome he))

theorem Grounded.addByRef {e : TypeRef} (h : c.Grounded) (he : (c.type? e).isSome = true) :
    (c.addByRef e).2.Grounded :=
  h.addType (foundedAt_derived h he (by simpa [Shape.references] using lt_size_of_isSome he))

theorem Grounded.addNullable {u : TypeRef} (h : c.Grounded) (hu : (c.type? u).isSome = true) :
    (c.addNullable u).2.Grounded :=
  h.addType (foundedAt_shaped _ (by decide)
    (by simpa [Shape.references] using lt_size_of_isSome hu))

theorem Grounded.addField {owner : TypeRef} {f : Field} (h : c.Grounded) :
    (c.addField owner f).Grounded :=
  h.modifyType fun _ _ ht => ⟨ht.shape, ht.enclosing, ht.readable⟩

theorem Grounded.addRoutine {m : Routine} (h : c.Grounded) : (c.addRoutine m).2.Grounded := by
  have listed (ref : RoutineRef) : (c.listMethod ref m).Grounded := by
    rw [listMethod]
    split
    · exact h.modifyType fun _ _ ht => ⟨ht.shape, ht.enclosing, ht.readable⟩
    · exact h
  exact listed _

/-! ## Histories -/

/-- A sound step keeps a catalog grounded. -/
theorem Grounded.apply {s : Step} (h : c.Grounded) (hs : s.Sound c) : (s.apply c).Grounded := by
  obtain ⟨known, named⟩ := hs
  cases s with
  | frameworkType name => exact h.addFrameworkType (named name List.mem_cons_self)
  | namedType space name => exact h.addType (foundedAt_ofName (named name List.mem_cons_self))
  | nestedType outer name =>
    exact h.addNestedType (known outer List.mem_cons_self) (named name List.mem_cons_self)
  | genericParameter name => exact h.addType (foundedAt_parameter (named name List.mem_cons_self))
  | genericDefinition space name parameters =>
    obtain ⟨hn, hp⟩ := List.forall_mem_cons.1 named
    exact h.addGenericDefinition hn hp
  | genericInstance definition arguments =>
    obtain ⟨hd, ha⟩ := List.forall_mem_cons.1 known
    exact h.addGenericInstance hd ha
  | array element rank => exact h.addArray (known element List.mem_cons_self)
  | byRef element => exact h.addByRef (known element List.mem_cons_self)
  | nullable underlying => exact h.addNullable (known underlying List.mem_cons_self)
  | field owner f => exact h.addField
  | routine r => exact h.addRoutine

/-- A catalog that was built by sound steps is grounded. -/
theorem Grounded.of_reached (h : Reached (fun c s => s.Sound c) c) : c.Grounded := by
  induction h with
  | empty => exact grounded_empty
  | step _ hs ih => exact ih.apply hs

end Catalog

end ReadableTrace
