import ReadableTrace.Proofs.Catalog.Methods

/-!
# Entries stay where they are

References are positions, so a catalog must not move or change the entries that it has. No builder
does: `Catalog.Keeps` says of two catalogs that every entry of the first is found at the same place
in the second, where a type may list more fields and methods behind its own. The fields that come
in are given by type, so that nothing but `Catalog.addField` can have brought them, and only to the
type that it was asked to. Each addition keeps the catalog (`keeps_apply`), and so do many
(`keeps_after`).

Names are kept with the entries, and the first type of a full name stays the first, since new types
come behind it (`Keeps.findType?`). So a framework type is added once at most.

What an addition is asked for is said without the builders (`Addition.entry?`), and the reference
that it hands out leads there (`Addition.Resolves`).
-/

namespace ReadableTrace.Catalog

/-- The catalog after some additions. -/
def after (c : Catalog) (additions : List Addition) : Catalog :=
  additions.foldl (fun c a => a.apply c) c

/-- The references to the types that come in next. -/
def nextTypes (c : Catalog) (count : Nat) : List TypeRef :=
  (List.range' c.types.size count).map fun i => ⟨UInt32.ofNat i⟩

namespace Addition

/-- The fields that an addition puts on a type. -/
def fieldsOn (r : TypeRef) : Addition → List Field
  | built (.field owner f) => if owner = r then [f] else []
  | _ => []

/-- The reference to a type that an addition hands out. -/
def typeRef? (c : Catalog) : Addition → Option TypeRef
  | built (.frameworkType name) => some (c.addFrameworkType name).1
  | built (.namedType space name) => some (c.addNamedType space name).1
  | built (.nestedType outer name) => some (c.addNestedType outer name).1
  | built (.genericParameter name) => some (c.addGenericParameter name).1
  | built (.genericDefinition space name parameters) =>
    some (c.addGenericDefinition space name parameters).1
  | built (.genericInstance definition arguments) =>
    some (c.addGenericInstance definition arguments).1
  | built (.array element rank) => some (c.addArray element rank).1
  | built (.byRef element) => some (c.addByRef element).1
  | built (.nullable underlying) => some (c.addNullable underlying).1
  | given t => some (c.addType t).1
  | built (.field _ _) | built (.routine _) => none

/-- The entry of a parameter of a generic type. -/
def parameter (name : String) : TypeEntry :=
  { TypeEntry.ofName none name with fullName := none }

/-- The entry of the type that an addition asks for. A generic definition has the types that come in
right in front of it for its parameters. A framework type has no entry of its own, since another
type may be used for it. -/
def entry? (c : Catalog) : Addition → Option TypeEntry
  | built (.namedType space name) => some (.ofName space name)
  | built (.nestedType outer name) =>
    some
      { TypeEntry.ofName ((c.type? outer).bind (·.space)) name with
        fullName := ((c.type? outer).bind (·.fullName)).map (· ++ "+" ++ name)
        enclosing := some outer }
  | built (.genericParameter name) => some (parameter name)
  | built (.genericDefinition space name parameters) =>
    some
      { TypeEntry.ofName space name with
        shape := .generic none (c.nextTypes parameters.length) }
  | built (.genericInstance definition arguments) =>
    some
      { c.derived definition "" with
        enclosing := (c.type? definition).bind (·.enclosing)
        shape := .generic (some definition) arguments }
  | built (.array element rank) =>
    some { c.derived element (brackets rank) with shape := .array element rank }
  | built (.byRef element) => some { c.derived element "&" with shape := .byRef element }
  | built (.nullable underlying) =>
    some
      { TypeEntry.ofName (some frameworkSpace) "Nullable`1" with
        shape := .nullable underlying }
  | given t => some t
  | built (.frameworkType _) | built (.field _ _) | built (.routine _) => none

end Addition

/-- Every entry of the first catalog is in the second at the same place. A type has more fields
there, which depend on the type, and may list more methods; nothing else of it has changed. -/
structure Keeps (more : TypeRef → List Field) (c c' : Catalog) : Prop where
  type? {r t} : c.type? r = some t → ∃ listed, c'.type? r =
    some { t with fields := t.fields ++ more r, methods := t.methods ++ listed }
  routine? {q m} : c.routine? q = some m → c'.routine? q = some m
  types_size_le : c.types.size ≤ c'.types.size
  routines_size_le : c.routines.size ≤ c'.routines.size

variable {c c' c'' : Catalog} {r owner : TypeRef} {q : RoutineRef} {t : TypeEntry} {m : Routine}
  {f : Field} {more further : TypeRef → List Field} {a : Addition} {as : List Addition}
  {name : String}

/-! ## Catalogs that are kept -/

theorem Keeps.refl (c : Catalog) : Keeps (fun _ => []) c c where
  type? {r t} h := ⟨[], by rw [h, List.append_nil, List.append_nil]⟩
  routine? h := h
  types_size_le := Nat.le_refl _
  routines_size_le := Nat.le_refl _

theorem Keeps.trans (h : Keeps more c c') (h' : Keeps further c' c'') :
    Keeps (fun r => more r ++ further r) c c'' where
  type? {r t} ht := by
    obtain ⟨listed, ht⟩ := h.type? ht
    obtain ⟨others, ht⟩ := h'.type? ht
    exact ⟨listed ++ others, by rw [ht, List.append_assoc, List.append_assoc]⟩
  routine? hm := h'.routine? (h.routine? hm)
  types_size_le := Nat.le_trans h.types_size_le h'.types_size_le
  routines_size_le := Nat.le_trans h.routines_size_le h'.routines_size_le

theorem keeps_addType (c : Catalog) (t : TypeEntry) : Keeps (fun _ => []) c (c.addType t).2 where
  type? {r u} h := by
    refine ⟨[], ?_⟩
    rw [type?_addType, if_neg (Nat.ne_of_lt (index_lt_of_type? h)), h, List.append_nil,
      List.append_nil]
  routine? h := h
  types_size_le := by simp [addType]
  routines_size_le := Nat.le_refl _

theorem keeps_addGenericParameters (c : Catalog) (names : List String) :
    Keeps (fun _ => []) c (c.addGenericParameters names).2 := by
  induction names generalizing c with
  | nil => exact .refl c
  | cons name names ih => exact (keeps_addType c _).trans (ih (c.addGenericParameter name).2)

theorem keeps_addFrameworkType (c : Catalog) (name : String) :
    Keeps (fun _ => []) c (c.addFrameworkType name).2 := by
  rw [addFrameworkType]
  split
  · exact .refl c
  · exact keeps_addType c _

theorem keeps_addField (c : Catalog) (owner : TypeRef) (f : Field) :
    Keeps (fun r => if owner = r then [f] else []) c (c.addField owner f) where
  type? {r t} h := by
    refine ⟨[], ?_⟩
    rw [addField, type?_modifyType, h, Option.map_some]
    split <;> simp
  routine? h := h
  types_size_le := by simp [addField, modifyType]
  routines_size_le := Nat.le_refl _

theorem keeps_addRoutine (c : Catalog) (m : Routine) :
    Keeps (fun _ => []) c (c.addRoutine m).2 where
  type? {r t} h := by
    rw [type?_addRoutine, h, Option.map_some]
    split
    · exact ⟨[c.nextRoutine], by rw [List.append_nil]⟩
    · exact ⟨[], by rw [List.append_nil, List.append_nil]⟩
  routine? {q n} h := by
    rw [routine?_addRoutine, if_neg (Nat.ne_of_lt (index_lt_of_routine? h)), h]
  types_size_le := by
    show _ ≤ (c.listMethod c.nextRoutine m).types.size
    rw [listMethod]
    split <;> simp [modifyType]
  routines_size_le := routines_size_le_apply (.built (.routine m))

/-- An addition keeps the catalog. -/
theorem keeps_apply (c : Catalog) (a : Addition) : Keeps a.fieldsOn c (a.apply c) := by
  cases a with
  | given t => exact keeps_addType c t
  | built s =>
    cases s with
    | frameworkType name => exact keeps_addFrameworkType c name
    | genericDefinition space name parameters =>
      exact (keeps_addGenericParameters c parameters).trans (keeps_addType _ _)
    | field owner f => exact keeps_addField c owner f
    | routine m => exact keeps_addRoutine c m
    | _ => exact keeps_addType c _

/-- Many additions keep the catalog; the fields of a type that come in are those that additions put
on it, in their order. -/
theorem keeps_after (c : Catalog) (as : List Addition) :
    Keeps (fun r => as.flatMap (·.fieldsOn r)) c (c.after as) := by
  induction as generalizing c with
  | nil => exact .refl c
  | cons a as ih => exact (keeps_apply c a).trans (ih (a.apply c))

theorem after_append (c : Catalog) (as bs : List Addition) :
    c.after (as ++ bs) = (c.after as).after bs :=
  List.foldl_append

/-! ## Full names -/

/-- A type is the first of its full name. -/
structure IsFirst (c : Catalog) (fullName : String) (r : TypeRef) : Prop where
  named : ∃ t, c.type? r = some t ∧ t.fullName = some fullName
  first : ∀ q t, q.index < r.index → c.type? q = some t → t.fullName ≠ some fullName

theorem findType?_eq_some_iff (hs : c.types.size < UInt32.size) :
    c.findType? name = some r ↔ c.IsFirst name r := by
  have position {i : Nat} (hi : i < c.types.size) : (UInt32.ofNat i).toNat = i :=
    UInt32.toNat_ofNat_of_lt' (Nat.lt_trans hi hs)
  simp only [findType?, Option.map_eq_some_iff, Array.findIdx?_eq_some_iff_getElem, beq_iff_eq]
  constructor
  · rintro ⟨i, ⟨hi, hn, first⟩, rfl⟩
    refine ⟨⟨c.types[i], ?_, hn⟩, fun q t hq ht => ?_⟩
    · rw [type?, position hi, Array.getElem?_eq_getElem hi]
    · rw [UInt32.lt_iff_toNat_lt, position hi] at hq
      obtain ⟨_, rfl⟩ := Array.getElem?_eq_some_iff.1 ht
      exact first _ hq
  · rintro ⟨⟨t, ht, hn⟩, first⟩
    obtain ⟨hr, rfl⟩ := Array.getElem?_eq_some_iff.1 ht
    refine ⟨r.index.toNat, ⟨hr, hn, fun j hj => ?_⟩, ?_⟩
    · have hj' := Nat.lt_trans hj hr
      refine first ⟨UInt32.ofNat j⟩ _ ?_ ?_
      · rw [UInt32.lt_iff_toNat_lt, position hj']
        exact hj
      · rw [type?, position hj', Array.getElem?_eq_getElem hj']
    · rw [UInt32.ofNat_toNat]

/-- A full name keeps its first type. -/
theorem Keeps.findType? (h : Keeps more c c') (hs : c'.types.size < UInt32.size)
    (hr : c.findType? name = some r) : c'.findType? name = some r := by
  rw [findType?_eq_some_iff (Nat.lt_of_le_of_lt h.types_size_le hs)] at hr
  rw [findType?_eq_some_iff hs]
  obtain ⟨⟨t, ht, hn⟩, first⟩ := hr
  obtain ⟨_, ht'⟩ := h.type? ht
  refine ⟨⟨_, ht', hn⟩, fun q u hq hu => ?_⟩
  -- what stands in front of an old type is old
  have known : q.index.toNat < c.types.size :=
    Nat.lt_trans (UInt32.lt_iff_toNat_lt.1 hq) (index_lt_of_type? ht)
  have old : c.type? q = some c.types[q.index.toNat] := Array.getElem?_eq_getElem known
  obtain ⟨_, hu'⟩ := h.type? old
  obtain rfl := Option.some.inj (hu'.symm.trans hu)
  exact fun hn => first q _ hq old hn

/-! ## What additions hand out -/

/-- The reference to a new type leads to that type, which stands behind all others. -/
theorem type?_addType_new (hs : c.types.size < UInt32.size) :
    (c.addType t).2.type? (c.addType t).1 = some t := by
  rw [type?_addType]
  exact if_pos (UInt32.toNat_ofNat_of_lt' hs)

/-- A framework type is the first of its full name as soon as it was asked for. -/
theorem findType?_addFrameworkType (hs : (c.addFrameworkType name).2.types.size < UInt32.size) :
    (c.addFrameworkType name).2.findType? (frameworkSpace ++ "." ++ name) =
      some (c.addFrameworkType name).1 := by
  rw [addFrameworkType] at hs ⊢
  cases found : c.findType? (frameworkSpace ++ "." ++ name) with
  | some r => exact found
  | none =>
    rw [found] at hs
    have size : c.types.size < UInt32.size :=
      Nat.lt_of_le_of_lt (keeps_addType c _).types_size_le hs
    have full : (TypeEntry.ofName (some frameworkSpace) name).fullName =
      some (frameworkSpace ++ "." ++ name) := rfl
    have none_old : ∀ u ∈ c.types, u.fullName ≠ some (frameworkSpace ++ "." ++ name) := by
      simpa [findType?] using found
    rw [findType?_eq_some_iff hs]
    refine ⟨⟨_, type?_addType_new size, full⟩, fun q u hq hu => ?_⟩
    have before : q.index.toNat < c.types.size := by
      have := UInt32.lt_iff_toNat_lt.1 hq
      rwa [addType, UInt32.toNat_ofNat_of_lt' size] at this
    rw [type?_addType, if_neg (Nat.ne_of_lt before)] at hu
    exact none_old u (Array.mem_of_getElem? hu)

/-- Asking again for a framework type gives the same reference and adds nothing. -/
theorem Keeps.addFrameworkType (h : Keeps more (c.addFrameworkType name).2 c')
    (hs : c'.types.size < UInt32.size) :
    c'.addFrameworkType name = ((c.addFrameworkType name).1, c') := by
  have before := Nat.lt_of_le_of_lt h.types_size_le hs
  have found := h.findType? hs (findType?_addFrameworkType before)
  rw [Catalog.addFrameworkType, found]

/-- The parameters of a generic definition come in behind all types, in their order. -/
theorem addGenericParameters_eq (c : Catalog) (names : List String) :
    c.addGenericParameters names = (c.nextTypes names.length,
      { c with types := c.types ++ (names.map Addition.parameter).toArray }) := by
  induction names generalizing c with
  | nil => simp [addGenericParameters, nextTypes]
  | cons name names ih =>
    simp [addGenericParameters, ih, nextTypes, addGenericParameter, addType, Addition.parameter,
      List.range'_succ]

/-- The parameters of a new generic definition are found under the references to the types that came
in next. -/
theorem type?_addGenericDefinition {space : Option String} {names : List String}
    (hs : (c.addGenericDefinition space name names).2.types.size < UInt32.size) :
    (c.nextTypes names.length).map (c.addGenericDefinition space name names).2.type? =
      names.map fun name => some (Addition.parameter name) := by
  rw [addGenericDefinition, addGenericParameters_eq] at hs ⊢
  have room : c.types.size + (names.length + 1) < UInt32.size := by simpa [addType] using hs
  refine List.ext_getElem (by simp [nextTypes]) fun i _ hi => ?_
  rw [List.length_map] at hi
  have position : (UInt32.ofNat (c.types.size + i)).toNat = c.types.size + i :=
    UInt32.toNat_ofNat_of_lt' (by omega)
  simp only [nextTypes, List.getElem_map, List.getElem_range', Nat.one_mul]
  rw [type?_addType, position, if_neg (by simp; omega), type?, position,
    Array.getElem?_append_right (Nat.le_add_right _ _), Nat.add_sub_cancel_left]
  simp [hi]

/-- All other additions that hand out a reference to a type end with adding that type. -/
theorem exists_addType (hr : a.typeRef? c = some r)
    (other : ∀ name, a ≠ .built (.frameworkType name)) :
    ∃ (c₀ : Catalog) (t : TypeEntry), c.types.size ≤ c₀.types.size ∧ a.entry? c = some t ∧
      r = (c₀.addType t).1 ∧ a.apply c = (c₀.addType t).2 := by
  cases a with
  | given t => exact ⟨c, t, Nat.le_refl _, rfl, (Option.some.inj hr).symm, rfl⟩
  | built s =>
    cases s with
    | frameworkType name => exact absurd rfl (other name)
    | genericDefinition space name parameters =>
      have arguments := congrArg Prod.fst (addGenericParameters_eq c parameters)
      refine ⟨(c.addGenericParameters parameters).2, _,
        (keeps_addGenericParameters c parameters).types_size_le, ?_, (Option.some.inj hr).symm, rfl⟩
      rw [arguments]
      rfl
    | field owner f => cases hr
    | routine m => cases hr
    | _ => exact ⟨c, _, Nat.le_refl _, rfl, (Option.some.inj hr).symm, rfl⟩

/-- What an addition hands out leads to what it was asked for: a reference to a type to the entry
that was asked for, which is new and the last one; that of a framework type to one of its full name;
and a reference to a routine to the routine. The parameters of a generic definition are new types of
the names that were asked for. -/
structure Addition.Resolves (c : Catalog) (a : Addition) : Prop where
  type : ∀ r, a.typeRef? c = some r → (∀ name, a ≠ .built (.frameworkType name)) →
    c.types.size < (a.apply c).types.size ∧ (a.apply c).type? r = (a.apply c).types.back? ∧
      ∃ t, a.entry? c = some t ∧ (a.apply c).type? r = some t
  parameters : ∀ space name names, a = .built (.genericDefinition space name names) →
    (c.nextTypes names.length).map (a.apply c).type? = names.map fun name => some (parameter name)
  framework : ∀ name, a = .built (.frameworkType name) →
    ∃ t, (a.apply c).type? (c.addFrameworkType name).1 = some t ∧
      t.fullName = some (frameworkSpace ++ "." ++ name)
  routine : ∀ m, a = .built (.routine m) → (a.apply c).routine? (c.addRoutine m).1 = some m

theorem resolves (types : (a.apply c).types.size < UInt32.size)
    (routines : (a.apply c).routines.size < UInt32.size) : a.Resolves c where
  type r hr other := by
    obtain ⟨c₀, t, size, entry, rfl, ha⟩ := exists_addType hr other
    have grown : (c₀.addType t).2.types.size = c₀.types.size + 1 := Array.size_push t
    rw [ha] at types ⊢
    have new : (c₀.addType t).2.type? (c₀.addType t).1 = some t := type?_addType_new (by omega)
    exact ⟨by omega, new.trans Array.back?_push.symm, t, entry, new⟩
  parameters space name names ha := by
    subst ha
    exact type?_addGenericDefinition types
  framework name ha := by
    subst ha
    exact ((findType?_eq_some_iff types).1 (findType?_addFrameworkType types)).named
  routine m ha := by
    subst ha
    have before := Nat.lt_of_le_of_lt (keeps_addRoutine c m).routines_size_le routines
    show (c.addRoutine m).2.routine? c.nextRoutine = some m
    rw [routine?_addRoutine, if_pos (toNat_nextRoutine before)]

/-! ## Runs -/

/-- **Entries stay where they are.** Whatever is added to a catalog, and in whatever order, as long
as positions fit into references: a type keeps its place and all of its entry, but for the fields
that are added to that type and for methods, which come in behind those that it has; a routine stays
the same; a full name keeps its first type. Each addition hands out a reference to the entry that it
was asked for, and a framework type that was asked for once is never added again. -/
theorem after_keeps_entries {c : Catalog} {as : List Addition}
    (types : (c.after as).types.size < UInt32.size)
    (routines : (c.after as).routines.size < UInt32.size) :
    (∀ r t, c.type? r = some t → ∃ listed, (c.after as).type? r =
      some { t with
        fields := t.fields ++ as.flatMap (·.fieldsOn r)
        methods := t.methods ++ listed }) ∧
    (∀ q m, c.routine? q = some m → (c.after as).routine? q = some m) ∧
    (∀ fullName r, c.findType? fullName = some r → (c.after as).findType? fullName = some r) ∧
    ∀ front a back, as = front ++ a :: back →
      a.Resolves (c.after front) ∧
      ∀ name, a = .built (.frameworkType name) → (c.after as).addFrameworkType name =
        (((c.after front).addFrameworkType name).1, c.after as) := by
  have kept := keeps_after c as
  refine ⟨fun r t => kept.type?, fun q m => kept.routine?, fun name r => kept.findType? types, ?_⟩
  rintro front a back rfl
  have split : c.after (front ++ a :: back) = (a.apply (c.after front)).after back :=
    after_append c front (a :: back)
  have rest := keeps_after (a.apply (c.after front)) back
  rw [split] at types routines ⊢
  refine ⟨resolves (Nat.lt_of_le_of_lt rest.types_size_le types)
    (Nat.lt_of_le_of_lt rest.routines_size_le routines), fun name ha => ?_⟩
  subst ha
  exact rest.addFrameworkType types

/-- A type with a field and a method, and a type that nothing knows by its name. -/
def countedCatalog : Catalog where
  types := #[.ofName (some "System") "Int32",
    { TypeEntry.ofName (some "App") "Counter" with
      fields := [⟨"count", ⟨0⟩, none⟩]
      methods := [⟨0⟩] }]
  routines := #[.method "Next" ⟨1⟩ ⟨0⟩]

/-- Additions that ask twice for a framework type, add a field and a method to the type, and speak
of types that are not there. -/
def countedAdditions : List Addition :=
  [.built (.frameworkType "Void"), .built (.field ⟨1⟩ ⟨"step", ⟨0⟩, none⟩),
    .built (.array ⟨9⟩ 2), .built (.routine (.method "Reset" ⟨1⟩ ⟨2⟩)),
    .built (.field ⟨0⟩ ⟨"value", ⟨0⟩, none⟩), .built (.genericDefinition none "Box`1" ["T"]),
    .built (.frameworkType "Void"), .given (.ofName none "Program")]

/-- The type keeps its field and method and has one more of each, and the second request for the
framework type gives the type that the first one added. -/
theorem after_countedAdditions :
    (countedCatalog.after countedAdditions).types.size < UInt32.size ∧
    (countedCatalog.after countedAdditions).routines.size < UInt32.size ∧
    (∃ listed, (countedCatalog.after countedAdditions).type? ⟨1⟩ =
      some { TypeEntry.ofName (some "App") "Counter" with
        fields := [⟨"count", ⟨0⟩, none⟩, ⟨"step", ⟨0⟩, none⟩]
        methods := ⟨0⟩ :: listed }) ∧
    (countedCatalog.after countedAdditions).addFrameworkType "Void" =
      (⟨2⟩, countedCatalog.after countedAdditions) := by
  have types : (countedCatalog.after countedAdditions).types.size < UInt32.size := by
    decide +kernel
  have routines : (countedCatalog.after countedAdditions).routines.size < UInt32.size := by
    decide +kernel
  have first : (countedCatalog.addFrameworkType "Void").1 = ⟨2⟩ := by decide +kernel
  obtain ⟨kept, -, -, steps⟩ := after_keeps_entries types routines
  exact ⟨types, routines, kept ⟨1⟩ _ rfl, first ▸ (steps [] _ _ rfl).2 "Void" rfl⟩

end ReadableTrace.Catalog
