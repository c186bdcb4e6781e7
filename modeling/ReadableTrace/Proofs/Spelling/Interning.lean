import ReadableTrace.Proofs.Catalog.Additions
import ReadableTrace.Proofs.Spelling.Composition

/-!
# Framework types are found by name

A framework type is looked for by its full name alone, and the first type of that name is used
again, whatever it is. What this may be depends on how the types before it came about. A type that
is built from another takes its full name from that type, and adds a sign to it that no plain name
has, unless it is an instance of a generic type, which then stands behind its definition. Only
nullable types are all named like the framework's own type `Nullable`.

`Origin` are these cases for an entry behind others, and `Traced` says that every entry of a list
has come about in one of them. Every addition keeps this up (`Traced.apply`). So the entry that is
found is plain or the open definition of a generic type, and is spelled by its own names, unless it
is a nullable type and this was asked for (`Catalog.addFrameworkType_spelled`).
-/

namespace ReadableTrace

open Log Outcome Spelling

/-! ## Where entries come from -/

/-- How a type is built and by which name it is found. -/
structure Outline where
  shape : Shape
  fullName : Option String

/-- What is left of an entry without its members. -/
def TypeEntry.outline (t : TypeEntry) : Outline := ⟨t.shape, t.fullName⟩

/-- The full name of a framework type. -/
def frameworkName (name : String) : String := Catalog.frameworkSpace ++ "." ++ name

/-- A name without the signs that the names of arrays and of types of references have. -/
structure Unsigned (name : String) : Prop where
  bracket : '[' ∉ name.toList
  ampersand : '&' ∉ name.toList

namespace Outline

/-- The type is not found by the name of a framework type, unless the name has a sign. -/
def Hidden (o : Outline) : Prop :=
  ∀ name, o.fullName = some (frameworkName name) → ¬ Unsigned name

/-- How an entry has come about behind some others. -/
inductive Origin (before : List Outline) (o : Outline) : Prop
  | plain : o.shape = .plain → Origin before o
  | definition {args} : o.shape = .generic none args → Origin before o
  | nullable {u} : o.shape = .nullable u → o.fullName = some (frameworkName "Nullable`1") →
    Origin before o
  /-- Another type of the full name stands in front. -/
  | second {other} : other ∈ before → other.fullName = o.fullName → Origin before o
  | hidden : o.Hidden → Origin before o

/-- Every entry of a list has come about behind those in front of it. -/
inductive Traced : List Outline → Prop
  | nil : Traced []
  | snoc {os o} : Traced os → Origin os o → Traced (os ++ [o])

variable {os : List Outline} {o : Outline} {name : String}

/-- The first type of a framework type's full name is one that is named on its own account. -/
theorem Traced.shape_of_find? (h : Traced os) (hn : Unsigned name)
    (found : os.find? (·.fullName == some (frameworkName name)) = some o) :
    o.shape = .plain ∨ (∃ args, o.shape = .generic none args) ∨
      (name = "Nullable`1" ∧ ∃ u, o.shape = .nullable u) := by
  induction h with
  | nil => cases found
  | @snoc os last _ origin ih =>
    rw [List.find?_append, Option.or_eq_some_iff] at found
    rcases found with found | ⟨none, found⟩
    · exact ih found
    obtain ⟨named, rfl⟩ : last.fullName = some (frameworkName name) ∧ last = o := by
      simpa [List.find?_cons_eq_some] using found
    cases origin with
    | plain hs => exact .inl hs
    | definition hs => exact .inr (.inl ⟨_, hs⟩)
    | nullable hs hf =>
      rw [named, Option.some.injEq, frameworkName, frameworkName, String.append_right_inj] at hf
      exact .inr (.inr ⟨hf, _, hs⟩)
    | @second other hm hf =>
      rw [List.find?_eq_none] at none
      exact absurd (hf.trans named) (by simpa using none other hm)
    | hidden hh => exact absurd hn (hh name named)

end Outline

namespace Catalog

variable {c : Catalog} {r : TypeRef} {t : TypeEntry} {name : String}

/-- The outlines of all types, in order. -/
def outlines (c : Catalog) : List Outline := c.types.toList.map (·.outline)

/-- Every type has come about behind those in front of it. -/
def Traced (c : Catalog) : Prop := Outline.Traced c.outlines

/-! ## Additions -/

theorem outlines_addType : (c.addType t).2.outlines = c.outlines ++ [t.outline] := by
  simp [outlines, addType]

/-- What only concerns the members of a type does not show in the outlines. -/
theorem outlines_modifyType {f : TypeEntry → TypeEntry} (hf : ∀ t, (f t).outline = t.outline) :
    (c.modifyType r f).outlines = c.outlines := by
  refine List.ext_getElem? fun i => ?_
  simp only [outlines, modifyType, List.getElem?_map, Array.getElem?_toList,
    Array.getElem?_modify]
  split
  · cases c.types[i]? <;> simp [hf]
  · rfl

theorem outlines_addField (c : Catalog) (owner : TypeRef) (f : Field) :
    (c.addField owner f).outlines = c.outlines :=
  outlines_modifyType fun _ => rfl

theorem outlines_addRoutine (c : Catalog) (m : Routine) :
    (c.addRoutine m).2.outlines = c.outlines := by
  show (c.listMethod c.nextRoutine m).outlines = c.outlines
  rw [listMethod]
  split
  · exact outlines_modifyType fun t => rfl
  · rfl

theorem Traced.addType (h : c.Traced) (ht : Outline.Origin c.outlines t.outline) :
    (c.addType t).2.Traced := by
  rw [Traced, outlines_addType]
  exact .snoc h ht

theorem Traced.addFrameworkType (h : c.Traced) (name : String) :
    (c.addFrameworkType name).2.Traced := by
  rw [Catalog.addFrameworkType]
  split
  · exact h
  · exact h.addType (.plain rfl)

theorem Traced.addGenericParameters (h : c.Traced) (names : List String) :
    (c.addGenericParameters names).2.Traced := by
  induction names generalizing c with
  | nil => exact h
  | cons name names ih => exact ih (h.addType (.plain rfl))

/-! ### Types built from others -/

theorem unsigned_append_iff {a b : String} : Unsigned (a ++ b) ↔ Unsigned a ∧ Unsigned b := by
  constructor
  · rintro ⟨h, h'⟩
    simp only [String.toList_append, List.mem_append, not_or] at h h'
    exact ⟨⟨h.1, h'.1⟩, ⟨h.2, h'.2⟩⟩
  · rintro ⟨h, h'⟩
    constructor
    · simpa using ⟨h.bracket, h'.bracket⟩
    · simpa using ⟨h.ampersand, h'.ampersand⟩

theorem unsigned_frameworkName_iff : Unsigned (frameworkName name) ↔ Unsigned name := by
  have space : Unsigned frameworkSpace := ⟨by decide, by decide⟩
  have dot : Unsigned "." := ⟨by decide, by decide⟩
  simp only [frameworkName, unsigned_append_iff, space, dot, true_and]

theorem not_unsigned_brackets (rank : UInt32) : ¬ Unsigned (brackets rank) := by
  intro h
  have bracket := h.bracket
  simp [brackets] at bracket

/-- A type that is built from another is hidden if a sign is added to the name. -/
theorem hidden_derived {base : TypeRef} {suffix : String} {shape : Shape}
    (sign : ¬ Unsigned suffix) :
    ({ c.derived base suffix with shape := shape } : TypeEntry).outline.Hidden := by
  intro name hf hn
  have named := unsigned_frameworkName_iff.2 hn
  rw [TypeEntry.outline, derived] at hf
  cases hb : c.type? base with
  | none =>
    simp only [hb, TypeEntry.ofName, TypeEntry.qualified, Option.some.injEq] at hf
    exact sign (hf ▸ named)
  | some b =>
    simp only [hb, TypeEntry.ofName, Option.map_eq_some_iff] at hf
    obtain ⟨full, -, hf⟩ := hf
    exact sign (unsigned_append_iff.1 (hf ▸ named)).2

/-- An instance of a generic type has the full name of its definition, if this is known, and else
an empty one. -/
theorem origin_genericInstance {definition : TypeRef} {shape : Shape} {enclosing : Option TypeRef} :
    Outline.Origin c.outlines
      ({ c.derived definition "" with enclosing := enclosing, shape := shape }
        : TypeEntry).outline := by
  cases hd : c.type? definition with
  | none =>
    refine .hidden fun name hf => ?_
    simp [TypeEntry.outline, derived, hd, TypeEntry.ofName, TypeEntry.qualified, frameworkName,
      frameworkSpace] at hf
  | some d =>
    refine @Outline.Origin.second _ _ d.outline ?_ ?_
    · exact List.mem_map_of_mem (Array.mem_toList_iff.2 (Array.mem_of_getElem? hd))
    · simp [TypeEntry.outline, derived, hd]

/-- Additions keep it so, if types that are added as they are could have come about like others. -/
theorem Traced.apply {a : Addition} (h : c.Traced)
    (ha : ∀ t, a = .given t → Outline.Origin c.outlines t.outline) : (a.apply c).Traced := by
  cases a with
  | given t => exact h.addType (ha t rfl)
  | built s =>
    cases s with
    | frameworkType name => exact h.addFrameworkType name
    | namedType space name => exact h.addType (.plain rfl)
    | nestedType outer name => exact h.addType (.plain rfl)
    | genericParameter name => exact h.addType (.plain rfl)
    | genericDefinition space name parameters =>
      exact (h.addGenericParameters parameters).addType (.definition rfl)
    | genericInstance definition arguments => exact h.addType origin_genericInstance
    | array element rank => exact h.addType (.hidden (hidden_derived (not_unsigned_brackets rank)))
    | byRef element => exact h.addType (.hidden (hidden_derived fun h => h.ampersand (by decide)))
    | nullable underlying => exact h.addType (.nullable rfl rfl)
    | field owner f =>
      show Outline.Traced (c.addField owner f).outlines
      rw [outlines_addField]
      exact h
    | routine m =>
      show Outline.Traced (c.addRoutine m).2.outlines
      rw [outlines_addRoutine]
      exact h

theorem Assembled.after {allowed : Catalog → Addition → Prop} {as : List Addition}
    (h : Assembled allowed c) (ha : ∀ a ∈ as, ∀ c, allowed c a) :
    Assembled allowed (c.after as) := by
  induction as generalizing c with
  | nil => exact h
  | cons a as ih =>
    rw [List.forall_mem_cons] at ha
    exact ih (.add h (ha.1 c)) ha.2

theorem Traced.of_assembled
    (h : Assembled (fun c a => ∀ t, a = .given t → Outline.Origin c.outlines t.outline) c) :
    c.Traced := by
  induction h with
  | empty => exact .nil
  | add _ ha ih => exact ih.apply ha

/-! ## The entry that is found -/

/-- The search among the types and that among their outlines find the same type. -/
theorem exists_of_findType? {fullName : String} (size : c.types.size < UInt32.size)
    (found : c.findType? fullName = some r) :
    ∃ t, c.type? r = some t ∧ t.fullName = some fullName ∧
      c.outlines.find? (·.fullName == some fullName) = some t.outline := by
  obtain ⟨i, hi, rfl⟩ := Option.map_eq_some_iff.1 found
  obtain ⟨inside, named, first⟩ := Array.findIdx?_eq_some_iff_getElem.1 hi
  have position : (UInt32.ofNat i).toNat = i :=
    UInt32.toNat_ofNat_of_lt' (Nat.lt_trans inside size)
  refine ⟨c.types[i], ?_, by simpa using named, ?_⟩
  · rw [type?, position, Array.getElem?_eq_getElem inside]
  · rw [outlines, List.find?_map, Option.map_eq_some_iff]
    refine ⟨_, List.find?_eq_some_iff_getElem.2 ⟨named, i, inside, rfl, fun j hj => ?_⟩, rfl⟩
    simpa [TypeEntry.outline] using first j hj

end Catalog

/-! ## How it is spelled -/

namespace Spelling

variable {c : Catalog} {lead s full : String} {r : TypeRef} {t : TypeEntry} {args : List TypeRef}

/-- The spelling of a framework type by its names: the keyword, or the simple name without its
arity suffix. -/
def frameworkHead (full : String) (t : TypeEntry) : String :=
  (keyword? full).getD (Name.dropArity t.name)

theorem nameSpelling_iff_of_framework (hf : t.fullName = some full)
    (hl : lead.toList <+: full.toList) : NameSpelling lead t s ↔ s = frameworkHead full t := by
  rw [← outcome_ofNames_eq_ok_iff, outcome_ofNames, decodable?_eq_none_iff.2 ⟨full, hf, .inr hl⟩,
    hf, Option.bind_some, Except.ok.injEq, frameworkHead, eq_comm]

/-- An open generic type is spelled by its own names in front of its parameters. -/
theorem ofType_iff_of_definition (hr : c.type? r = some t) (hs : t.shape = .generic none args)
    (hf : t.fullName = some full) (hl : lead.toList <+: full.toList) :
    (ofType c lead r).outcome = .ok s ↔
      ∃ ss, List.Forall₂ (fun a s' => (ofType c lead a).outcome = .ok s') args ss ∧
        s = frameworkHead full t ++ angled ss := by
  have head {n : String} : HeadSpelling c lead t n ↔ n = frameworkHead full t := by
    rw [HeadSpelling, hs]
    exact nameSpelling_iff_of_framework hf hl
  simp only [ofType_iff_of_generic hr hs, definitionOf, Except.ok.injEq]
  constructor
  · rintro ⟨_, n, ss, rfl, hn, hss, rfl⟩
    exact ⟨ss, hss, by rw [head.1 hn]⟩
  · rintro ⟨ss, hss, rfl⟩
    exact ⟨t, _, ss, rfl, head.2 rfl, hss, rfl⟩

end Spelling

namespace Catalog

/-- **A framework type that was asked for is no wrapper of another type.** Whatever was added to a
catalog before, as long as positions fit into references and types that were added as they are could
have come about like others: to ask for a framework type by a name without brackets and ampersands
gives the first type of its full name. This type is plain or an open generic type, and is spelled by
its keyword or its simple name, in front of its parameters if it has any. Only when `Nullable` was
asked for it may be a nullable type, which then is spelled as such. -/
theorem addFrameworkType_spelled {c c' : Catalog} {name : String} {r : TypeRef}
    (h : Assembled (fun c a => ∀ t, a = .given t → Outline.Origin c.outlines t.outline) c)
    (hn : Unsigned name) (asked : c.addFrameworkType name = (r, c'))
    (size : c'.types.size < UInt32.size) :
    c'.IsFirst (frameworkName name) r ∧ ∃ t, c'.type? r = some t ∧
      ((t.shape = .plain ∧
          (ofType c' "System." r).outcome = .ok (frameworkHead (frameworkName name) t)) ∨
        (∃ args, t.shape = .generic none args ∧ ∀ s, (ofType c' "System." r).outcome = .ok s ↔
          ∃ ss, List.Forall₂ (fun a s' => (ofType c' "System." a).outcome = .ok s') args ss ∧
            s = frameworkHead (frameworkName name) t ++ angled ss) ∨
        (name = "Nullable`1" ∧ ∃ u, t.shape = .nullable u ∧
          ∀ s, (ofType c' "System." r).outcome = .ok s ↔
            ∃ s', (ofType c' "System." u).outcome = .ok s' ∧ s' ++ "?" = s)) := by
  obtain ⟨rfl, rfl⟩ := Prod.mk.inj asked
  have found := findType?_addFrameworkType size
  have traced := (Traced.of_assembled h).addFrameworkType name
  obtain ⟨t, ht, hf, first⟩ := exists_of_findType? size found
  have lead : "System.".toList <+: (frameworkName name).toList := by
    rw [frameworkName, String.toList_append]
    exact List.prefix_append _ _
  refine ⟨(findType?_eq_some_iff size).1 found, t, ht, ?_⟩
  rcases traced.shape_of_find? hn first with hs | ⟨args, hs⟩ | ⟨named, u, hs⟩
  · exact .inl ⟨hs, (ofType_iff_of_plain ht hs).2
      ((nameSpelling_iff_of_framework hf lead).2 rfl)⟩
  · exact .inr (.inl ⟨args, hs, fun s => ofType_iff_of_definition ht hs hf lead⟩)
  · exact .inr (.inr ⟨named, u, hs, fun s => ofType_iff_of_nullable ht hs⟩)

/-! ## A generic type and a nullable type -/

/-- A generic type of the framework, and an instance of it. -/
def listCatalog : Catalog :=
  Catalog.empty.after [.built (.frameworkType "Int32"),
    .built (.genericDefinition (some "System") "List`1" ["T"]),
    .built (.genericInstance ⟨2⟩ [⟨0⟩])]

/-- Asking for the generic type gives its definition and not the instance. -/
theorem addFrameworkType_listCatalog :
    Assembled (fun c a => ∀ t, a = .given t → Outline.Origin c.outlines t.outline) listCatalog ∧
      Unsigned "List`1" ∧ listCatalog.addFrameworkType "List`1" = (⟨2⟩, listCatalog) ∧
      listCatalog.types.size < UInt32.size ∧
      listCatalog.IsFirst "System.List`1" ⟨2⟩ ∧
      (ofType listCatalog "System." ⟨2⟩).outcome = .ok "List<T>" := by
  have assembled : Assembled (fun c a => ∀ t, a = .given t → Outline.Origin c.outlines t.outline)
      listCatalog := by
    refine .after .empty fun a ha c t given => ?_
    subst given
    simp at ha
  have unsigned : Unsigned "List`1" := ⟨by decide, by decide⟩
  have asked : listCatalog.addFrameworkType "List`1" = (⟨2⟩, listCatalog) := by decide +kernel
  have size : listCatalog.types.size < UInt32.size := by decide +kernel
  have entry : listCatalog.type? ⟨2⟩ =
      some { TypeEntry.ofName (some "System") "List`1" with shape := .generic none [⟨1⟩] } := by
    decide +kernel
  have parameter : listCatalog.type? ⟨1⟩ =
      some { TypeEntry.ofName none "T" with fullName := none } := by
    decide +kernel
  have taken : Name.decode "T" = .ok ⟨"T", none⟩ := by decide
  have spelled : (ofType listCatalog "System." ⟨1⟩).outcome = .ok "T" :=
    (ofType_iff_of_plain parameter rfl).2 (.decoded rfl taken)
  obtain ⟨first, t, ht, shape⟩ := addFrameworkType_spelled assembled unsigned asked size
  obtain rfl := Option.some.inj (entry.symm.trans ht)
  refine ⟨assembled, unsigned, asked, size, first, ?_⟩
  rcases shape with ⟨hs, -⟩ | ⟨args, hs, iff⟩ | ⟨-, u, hs, -⟩
  · cases hs
  · obtain ⟨-, rfl⟩ := Shape.generic.inj hs
    exact (iff _).2 ⟨["T"], .cons spelled .nil, by decide +kernel⟩
  · cases hs

/-- A type, and the type of its values that may be missing. -/
def nullableCatalog : Catalog :=
  (Step.nullable ⟨0⟩).apply ((Step.frameworkType "Int32").apply .empty)

/-- Asking for the framework's own nullable type gives the one that was built from another. -/
theorem addFrameworkType_nullableCatalog :
    Reached (fun c s => ∀ r ∈ s.bases, (c.type? r).isSome = true) nullableCatalog ∧
      Unsigned "Nullable`1" ∧
      nullableCatalog.addFrameworkType "Nullable`1" = (⟨1⟩, nullableCatalog) ∧
      (∃ t, nullableCatalog.type? ⟨1⟩ = some t ∧ t.shape = .nullable ⟨0⟩ ∧ t.isGeneric = false) ∧
      (ofType nullableCatalog "System." ⟨1⟩).outcome = .ok "int?" := by
  have number : nullableCatalog.type? ⟨0⟩ = some (.ofName (some "System") "Int32") := by
    decide +kernel
  have nullable : nullableCatalog.type? ⟨1⟩ =
      some { TypeEntry.ofName (some "System") "Nullable`1" with shape := .nullable ⟨0⟩ } := by
    decide +kernel
  have int : (ofType nullableCatalog "System." ⟨0⟩).outcome = .ok "int" :=
    (ofType_iff_of_plain number rfl).2 (.keyword rfl (by decide))
  refine ⟨.step (.step .empty ?_) ?_, ⟨by decide, by decide⟩, by decide +kernel,
    ⟨_, nullable, rfl, rfl⟩, (ofType_iff_of_nullable nullable rfl).2 ⟨_, int, by decide⟩⟩
  · exact fun r hr => absurd hr List.not_mem_nil
  · intro r hr
    obtain rfl := List.mem_singleton.1 hr
    decide +kernel

end Catalog

end ReadableTrace
