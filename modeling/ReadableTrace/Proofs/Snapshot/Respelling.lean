import ReadableTrace.Proofs.Snapshot.Fields
import ReadableTrace.Proofs.Snapshot.RoundTrip

/-!
# Edits of a snapshot document

A document is edited by hand in one record at a time (`Edit`): its members change places, a member
that says the usual thing is left out, a note under an unknown key is put in, or a record inside it
is edited. `Edit.recordKept` says that what is read stays the same.

Every edit is first followed through the members of the record (`MembersKept`): under each known key
stands the same as before, or nothing in place of the usual thing, or a record that is read as
before. Each record is read from its members, so it takes one lemma of its own.
-/

namespace ReadableTrace.Snapshot

open Json

/-! ## Records and their members -/

/-- The records of a snapshot document. -/
inductive Record
  | snapshot | catalog | type | field | property | parameter | routine | frame | shape

namespace Record

/-- What a record is read as. -/
def Value : Record → Type
  | snapshot => Snapshot
  | catalog => Catalog
  | type => TypeEntry
  | field => Field
  | property => Property
  | parameter => Parameter
  | routine => Routine
  | frame => Frame
  | shape => Shape

/-- Reading a record. -/
def read : (r : Record) → Json → Option r.Value
  | snapshot => ofJson?
  | catalog => readCatalog
  | type => readType
  | field => readField
  | property => readProperty
  | parameter => readParameter
  | routine => readRoutine
  | frame => readFrame
  | shape => readShape

/-- The keys that a record with these members knows. -/
def keys (r : Record) (ms : List (String × Json)) : List String :=
  match r with
  | snapshot => ["metadata", "frames"]
  | catalog => ["types", "routines"]
  | type => typeKeys
  | field => ["name", "field_type", "delegate_target"]
  | property => ["name", "getter", "setter", "index_parameter_count"]
  | parameter => parameterKeys
  | routine => routineKeys
  | frame => ["routine", "file_name", "line_number"]
  | shape => "kind" :: shapeKeys (kindOf ms)

/-- What a missing member stands for, if it may be missing. -/
def usual? (r : Record) (key : String) : Option Json :=
  match r, key with
  | snapshot, "metadata" => some (ofCatalog .empty)
  | snapshot, "frames" => some (.list [])
  | catalog, "types" | catalog, "routines" => some (.list [])
  | type, "namespace" | type, "full_name" | type, "declaring_type" => some .null
  | type, "shape" => some (ofShape .plain)
  | type, "interfaces" | type, "fields" | type, "properties" | type, "methods" => some (.list [])
  | field, "delegate_target" => some .null
  | property, "getter" | property, "setter" => some .null
  | property, "index_parameter_count" => some (ofNat 0)
  | parameter, "name" | parameter, "tuple_element_names" | parameter, "default_value" => some .null
  | parameter, "is_params_array" | parameter, "is_out" | parameter, "is_in"
  | parameter, "is_dynamic" => some (.bool false)
  | routine, "declaring_type" | routine, "reflected_type" | routine, "return_parameter"
  | routine, "state_machine_type" => some .null
  | routine, "parameters" | routine, "generic_arguments" => some (.list [])
  | routine, "is_generic_method" | routine, "is_static" | routine, "hidden_in_trace" =>
    some (.bool false)
  | frame, "routine" | frame, "file_name" | frame, "line_number" => some .null
  | shape, "definition" => some .null
  | _, _ => none

end Record

/-- How a member holds other records: as its value, or as the items of its value. -/
inductive Part
  | one (r : Record)
  | many (r : Record)

/-- The records that a member holds, if it holds any. -/
def Record.part? (r : Record) (key : String) : Option Part :=
  match r, key with
  | snapshot, "metadata" => some (.one catalog)
  | snapshot, "frames" => some (.many frame)
  | catalog, "types" => some (.many type)
  | catalog, "routines" => some (.many routine)
  | type, "shape" => some (.one shape)
  | type, "fields" => some (.many field)
  | type, "properties" => some (.many property)
  | routine, "parameters" => some (.many parameter)
  | routine, "return_parameter" => some (.one parameter)
  | _, _ => none

/-! ## Edits -/

/-- What may stand under an unknown key. -/
inductive Note : Json → Prop
  | null : Note .null
  | bool (b : Bool) : Note (.bool b)
  | text (s : String) : Note (ofString s)

/-- One edit of a record. -/
inductive Edit : Record → Json → Json → Prop
  | reorder {r ms ms'} : ms.Perm ms' → Edit r (ofMembers ms) (ofMembers ms')
  | leaveOut {r k w front back} : r.usual? k = some w →
    Edit r (ofMembers (front ++ (k, w) :: back)) (ofMembers (front ++ back))
  | add {r k w front back} : k ∉ r.keys (front ++ back) → Note w →
    Edit r (ofMembers (front ++ back)) (ofMembers (front ++ (k, w) :: back))
  | member {r r' k w w' front back} : r.part? k = some (.one r') → Edit r' w w' →
    Edit r (ofMembers (front ++ (k, w) :: back)) (ofMembers (front ++ (k, w') :: back))
  | item {r r' k w w' ws ws' front back} : r.part? k = some (.many r') → Edit r' w w' →
    Edit r (ofMembers (front ++ (k, .list (ws ++ w :: ws')) :: back))
      (ofMembers (front ++ (k, .list (ws ++ w' :: ws')) :: back))

/-! ## What an edit does to the members -/

/-- Everything that is read from `v` is read from `w`. -/
def Kept {α : Type} (read : Json → Option α) (v w : Json) : Prop :=
  ∀ a, read v = some a → read w = some a

/-- Two objects, of which the second is read as the first. -/
inductive RecordKept (r : Record) : Json → Json → Prop
  | mk {ms ms'} : Kept r.read (ofMembers ms) (ofMembers ms') →
    RecordKept r (ofMembers ms) (ofMembers ms')

/-- The value of a member before and after an edit. -/
inductive PartKept : Part → Json → Json → Prop
  | one {r w w'} : RecordKept r w w' → PartKept (.one r) w w'
  | many {r w w' ws ws'} : RecordKept r w w' →
    PartKept (.many r) (.list (ws ++ w :: ws')) (.list (ws ++ w' :: ws'))

/-- What is found under a key before and after an edit. -/
inductive FoundKept (r : Record) (k : String) : Option Json → Option Json → Prop
  | same {o} : FoundKept r k o o
  | leftOut {w} : r.usual? k = some w → FoundKept r k (some w) none
  | part {p w w'} : r.part? k = some p → PartKept p w w' → FoundKept r k (some w) (some w')

/-- The known members are there after an edit as they were before. -/
def MembersKept (r : Record) (keys : List String) (ms ms' : List (String × Json)) : Prop :=
  ∀ fs, fields keys (ofMembers ms) = some fs →
    ∃ fs', fields keys (ofMembers ms') = some fs' ∧
      ∀ k ∈ keys, FoundKept r k (fs.lookup k) (fs'.lookup k)

variable {r : Record} {keys : List String} {ms ms' front back : List (String × Json)} {k : String}
  {w w' : Json} {fs fs' : Fields}

/-- The known keys of an object do not repeat if it is read by them. -/
theorem nodup_of_fields (h : fields keys (ofMembers ms) = some fs) :
    ((ms.filter (keys.contains ·.1)).map (·.1)).Nodup :=
  (fields_ofMembers_eq_some_iff.1 h).1

/-- Two objects with the same members of a key have the same under it. -/
theorem lookup_congr (h : fields keys (ofMembers ms) = some fs)
    (h' : fields keys (ofMembers ms') = some fs') (hk : k ∈ keys)
    (same : ∀ v, (k, v) ∈ ms ↔ (k, v) ∈ ms') : fs.lookup k = fs'.lookup k := by
  refine Option.ext fun v => ?_
  rw [lookup_eq_some_iff_mem h hk, lookup_eq_some_iff_mem h' hk, same]

theorem membersKept_of_perm (h : ms.Perm ms') : MembersKept r keys ms ms' := by
  intro fs hf
  have hf' := fields_ofMembers
    (((h.filter (keys.contains ·.1)).map (·.1)).nodup_iff.1 (nodup_of_fields hf))
  refine ⟨_, hf', fun k hk => ?_⟩
  rw [lookup_congr hf hf' hk fun v => h.mem_iff]
  exact .same

theorem membersKept_of_leaveOut (hu : r.usual? k = some w) :
    MembersKept r keys (front ++ (k, w) :: back) (front ++ back) := by
  intro fs hf
  have hs : (front ++ back).Sublist (front ++ (k, w) :: back) :=
    (List.sublist_cons_self _ _).append_left front
  have hf' := fields_ofMembers ((nodup_of_fields hf).sublist ((hs.filter _).map _))
  refine ⟨_, hf', fun j hj => ?_⟩
  by_cases hjk : j = k
  · subst hjk
    -- the key was there once only, so nothing is left under it
    have after : ((front ++ back).filter (keys.contains ·.1)).lookup j = none := by
      rw [Option.eq_none_iff_forall_ne_some]
      intro v hv
      have hm := (lookup_eq_some_iff_mem hf' hj).1 hv
      have once : (j :: ((front ++ back).filter (keys.contains ·.1)).map (·.1)).Nodup := by
        simpa [List.filter_cons, hj, List.nodup_middle] using nodup_of_fields hf
      refine (List.nodup_cons.1 once).1 (List.mem_map.2 ⟨(j, v), ?_, rfl⟩)
      exact List.mem_filter.2 ⟨hm, List.contains_iff_mem.2 hj⟩
    have before : fs.lookup j = some w := (lookup_eq_some_iff_mem hf hj).2 (by simp)
    rw [before, after]
    exact .leftOut hu
  · rw [lookup_congr hf hf' hj fun v => by simp [hjk]]
    exact .same

theorem membersKept_of_add (hk : k ∉ keys) :
    MembersKept r keys (front ++ back) (front ++ (k, w) :: back) := by
  intro fs hf
  have same : (front ++ (k, w) :: back).filter (keys.contains ·.1) =
      (front ++ back).filter (keys.contains ·.1) := by
    simp [hk]
  refine ⟨fs, ?_, fun _ _ => .same⟩
  rw [fields_ofMembers_eq_some_iff, same]
  exact fields_ofMembers_eq_some_iff.1 hf

theorem membersKept_of_part {p : Part} (hp : r.part? k = some p) (hw : PartKept p w w') :
    MembersKept r keys (front ++ (k, w) :: back) (front ++ (k, w') :: back) := by
  intro fs hf
  have same : ((front ++ (k, w') :: back).filter (keys.contains ·.1)).map (·.1) =
      ((front ++ (k, w) :: back).filter (keys.contains ·.1)).map (·.1) := by
    simp only [List.filter_append, List.filter_cons]
    split <;> simp
  have hf' := fields_ofMembers (same ▸ nodup_of_fields hf)
  refine ⟨_, hf', fun j hj => ?_⟩
  by_cases hjk : j = k
  · subst hjk
    have before : fs.lookup j = some w := (lookup_eq_some_iff_mem hf hj).2 (by simp)
    have after := (lookup_eq_some_iff_mem (v := w') hf' hj).2 (by simp)
    rw [before, after]
    exact .part hp hw
  · rw [lookup_congr hf hf' hj fun v => by simp [hjk]]
    exact .same

/-! ## What is read from the members -/

section Members

variable {α : Type} {read : Json → Option α} {absent a : α}

theorem required_of_foundKept (h : FoundKept r k (fs.lookup k) (fs'.lookup k))
    (hu : r.usual? k = none) (hp : r.part? k = none) (ha : fs.required k read = some a) :
    fs'.required k read = some a := by
  unfold Fields.required at ha ⊢
  revert h ha
  generalize fs.lookup k = o, fs'.lookup k = o'
  rintro (_ | hw | ⟨hw, -⟩) ha
  · exact ha
  · exact absurd (hu.symm.trans hw) nofun
  · exact absurd (hp.symm.trans hw) nofun

/-- A member that may be left out is read as before if what it stands for then is read as what is
absent, and if the records in it are kept. -/
theorem optional_of_partKept (h : FoundKept r k (fs.lookup k) (fs'.lookup k))
    (hu : r.usual? k = some w) (hw : read w = some absent)
    (hp : ∀ p, r.part? k = some p → ∀ v v', PartKept p v v' → Kept read v v')
    (ha : fs.optional k absent read = some a) : fs'.optional k absent read = some a := by
  unfold Fields.optional at ha ⊢
  revert h ha
  generalize fs.lookup k = o, fs'.lookup k = o'
  rintro (_ | hl | ⟨hp', hk⟩) ha
  · exact ha
  · obtain rfl := Option.some.inj (hu.symm.trans hl)
    exact hw.symm.trans ha
  · exact hp _ hp' _ _ hk a ha

theorem optional_of_foundKept (h : FoundKept r k (fs.lookup k) (fs'.lookup k))
    (hu : r.usual? k = some w) (hw : read w = some absent) (hp : r.part? k = none)
    (ha : fs.optional k absent read = some a) : fs'.optional k absent read = some a :=
  optional_of_partKept h hu hw (fun _ hp' => absurd (hp.symm.trans hp') nofun) ha

theorem kept_of_partKept {r' : Record} {v v' : Json} (h : PartKept (.one r') v v') :
    Kept r'.read v v' := by
  obtain ⟨⟨h⟩⟩ := h
  exact h

theorem kept_toOption {r' : Record} {v v' : Json} (h : PartKept (.one r') v v') :
    Kept (toOption? r'.read) v v' := by
  obtain ⟨⟨h⟩⟩ := h
  intro a ha
  simp only [ofMembers, toOption?, Option.map_eq_some_iff] at ha ⊢
  obtain ⟨b, hb, rfl⟩ := ha
  exact ⟨b, h b hb, rfl⟩

theorem kept_toList {r' : Record} {v v' : Json} (h : PartKept (.many r') v v') :
    Kept (toList? r'.read) v v' := by
  obtain _ | ⟨⟨h⟩⟩ := h
  intro as has
  simp only [toList?, List.mapM_append, List.mapM_cons, Option.bind_eq_bind, Option.pure_def,
    Option.bind_eq_some_iff, Option.some.injEq] at has ⊢
  obtain ⟨front, hf, _, ⟨b, hb, back, hr, rfl⟩, rfl⟩ := has
  exact ⟨front, hf, _, ⟨b, h b hb, back, hr, rfl⟩, rfl⟩

end Members

/-! ## One edit of each record -/

theorem kept_readField (h : MembersKept .field ["name", "field_type", "delegate_target"] ms ms') :
    Kept readField (ofMembers ms) (ofMembers ms') := by
  intro f hf
  obtain ⟨fs, hfs, name, type, target⟩ := readField_eq_some_iff.1 hf
  obtain ⟨fs', hfs', found⟩ := h fs hfs
  refine readField_eq_some_iff.2 ⟨fs', hfs', ?_, ?_, ?_⟩
  · exact required_of_foundKept (found _ (by decide)) rfl rfl name
  · exact required_of_foundKept (found _ (by decide)) rfl rfl type
  · exact optional_of_foundKept (found _ (by decide)) rfl rfl rfl target

theorem kept_readProperty
    (h : MembersKept .property ["name", "getter", "setter", "index_parameter_count"] ms ms') :
    Kept readProperty (ofMembers ms) (ofMembers ms') := by
  intro p hp
  obtain ⟨fs, hfs, name, getter, setter, count⟩ := readProperty_eq_some_iff.1 hp
  obtain ⟨fs', hfs', found⟩ := h fs hfs
  refine readProperty_eq_some_iff.2 ⟨fs', hfs', ?_, ?_, ?_, ?_⟩
  · exact required_of_foundKept (found _ (by decide)) rfl rfl name
  · exact optional_of_foundKept (found _ (by decide)) rfl rfl rfl getter
  · exact optional_of_foundKept (found _ (by decide)) rfl rfl rfl setter
  · exact optional_of_foundKept (found _ (by decide)) rfl (toUInt64?_ofNat 0) rfl count

theorem kept_readParameter (h : MembersKept .parameter parameterKeys ms ms') :
    Kept readParameter (ofMembers ms) (ofMembers ms') := by
  intro p hp
  obtain ⟨fs, hfs, name, type, variadic, out, inward, dynamic, names, default⟩ :=
    readParameter_eq_some_iff.1 hp
  obtain ⟨fs', hfs', found⟩ := h fs hfs
  refine readParameter_eq_some_iff.2 ⟨fs', hfs', ?_, ?_, ?_, ?_, ?_, ?_, ?_, ?_⟩
  · exact optional_of_foundKept (found _ (by decide)) rfl rfl rfl name
  · exact required_of_foundKept (found _ (by decide)) rfl rfl type
  · exact optional_of_foundKept (found _ (by decide)) rfl rfl rfl variadic
  · exact optional_of_foundKept (found _ (by decide)) rfl rfl rfl out
  · exact optional_of_foundKept (found _ (by decide)) rfl rfl rfl inward
  · exact optional_of_foundKept (found _ (by decide)) rfl rfl rfl dynamic
  · exact optional_of_foundKept (found _ (by decide)) rfl rfl rfl names
  · exact optional_of_foundKept (found _ (by decide)) rfl rfl rfl default

theorem kept_readFrame (h : MembersKept .frame ["routine", "file_name", "line_number"] ms ms') :
    Kept readFrame (ofMembers ms) (ofMembers ms') := by
  intro f hf
  obtain ⟨fs, hfs, routine, file, line⟩ := readFrame_eq_some_iff.1 hf
  obtain ⟨fs', hfs', found⟩ := h fs hfs
  refine readFrame_eq_some_iff.2 ⟨fs', hfs', ?_, ?_, ?_⟩
  · exact optional_of_foundKept (found _ (by decide)) rfl rfl rfl routine
  · exact optional_of_foundKept (found _ (by decide)) rfl rfl rfl file
  · exact optional_of_foundKept (found _ (by decide)) rfl rfl rfl line

/-- The kind of a shape is read from the members of its keys. -/
theorem kept_readShapeOfKind {kind : String} {s : Shape}
    (h : MembersKept .shape (shapeKeys kind) ms ms')
    (hs : readShapeOfKind kind (ofMembers ms) = some s) :
    readShapeOfKind kind (ofMembers ms') = some s := by
  unfold readShapeOfKind at hs ⊢
  split at hs
  · exact hs
  · simp only [Option.bind_eq_bind, Option.bind_eq_some_iff, Option.some.injEq] at hs ⊢
    obtain ⟨fs, hfs, e, he, k, hk, rfl⟩ := hs
    obtain ⟨fs', hfs', found⟩ := h fs hfs
    exact ⟨fs', hfs', e, required_of_foundKept (found _ (by decide)) rfl rfl he, k,
      required_of_foundKept (found _ (by decide)) rfl rfl hk, rfl⟩
  · simp only [Option.bind_eq_bind, Option.bind_eq_some_iff, Option.some.injEq] at hs ⊢
    obtain ⟨fs, hfs, e, he, rfl⟩ := hs
    obtain ⟨fs', hfs', found⟩ := h fs hfs
    exact ⟨fs', hfs', e, required_of_foundKept (found _ (by decide)) rfl rfl he, rfl⟩
  · simp only [Option.bind_eq_bind, Option.bind_eq_some_iff, Option.some.injEq] at hs ⊢
    obtain ⟨fs, hfs, u, hu, rfl⟩ := hs
    obtain ⟨fs', hfs', found⟩ := h fs hfs
    exact ⟨fs', hfs', u, required_of_foundKept (found _ (by decide)) rfl rfl hu, rfl⟩
  · simp only [Option.bind_eq_bind, Option.bind_eq_some_iff, Option.some.injEq] at hs ⊢
    obtain ⟨fs, hfs, d, hd, as, has, rfl⟩ := hs
    obtain ⟨fs', hfs', found⟩ := h fs hfs
    exact ⟨fs', hfs', d, optional_of_foundKept (found _ (by decide)) rfl rfl rfl hd, as,
      required_of_foundKept (found _ (by decide)) rfl rfl has, rfl⟩
  · cases hs

theorem kept_readShape (hkind : MembersKept .shape ["kind"] ms ms')
    (h : MembersKept .shape (shapeKeys (kindOf ms)) ms ms')
    (fits : (∀ m ∈ ms, Fits m.2) → ∀ m ∈ ms', Fits m.2) :
    Kept readShape (ofMembers ms) (ofMembers ms') := by
  intro s hs
  obtain ⟨hfit, tag, kind, ht, hk, hs⟩ := readShape_ofMembers_eq_some_iff.1 hs
  obtain ⟨tag', ht', found⟩ := hkind tag ht
  rw [kindOf_eq ht hk] at h
  exact readShape_ofMembers_eq_some_iff.2 ⟨fits hfit, tag', kind, ht',
    required_of_foundKept (found _ (by decide)) rfl rfl hk, kept_readShapeOfKind h hs⟩

theorem kept_readType (h : MembersKept .type typeKeys ms ms') :
    Kept readType (ofMembers ms) (ofMembers ms') := by
  intro t ht
  obtain ⟨fs, hfs, name, space, fullName, shape, enclosing, interfaces, fields, properties,
    methods⟩ := readType_eq_some_iff.1 ht
  obtain ⟨fs', hfs', found⟩ := h fs hfs
  refine readType_eq_some_iff.2 ⟨fs', hfs', ?_, ?_, ?_, ?_, ?_, ?_, ?_, ?_, ?_⟩
  · exact required_of_foundKept (found _ (by decide)) rfl rfl name
  · exact optional_of_foundKept (found _ (by decide)) rfl rfl rfl space
  · exact optional_of_foundKept (found _ (by decide)) rfl rfl rfl fullName
  · refine optional_of_partKept (found _ (by decide)) rfl (readShape_ofShape .plain) ?_ shape
    rintro _ ⟨⟩ _ _ hv
    exact kept_of_partKept hv
  · exact optional_of_foundKept (found _ (by decide)) rfl rfl rfl enclosing
  · exact optional_of_foundKept (found _ (by decide)) rfl rfl rfl interfaces
  · refine optional_of_partKept (found _ (by decide)) rfl rfl ?_ fields
    rintro _ ⟨⟩ _ _ hv
    exact kept_toList hv
  · refine optional_of_partKept (found _ (by decide)) rfl rfl ?_ properties
    rintro _ ⟨⟩ _ _ hv
    exact kept_toList hv
  · exact optional_of_foundKept (found _ (by decide)) rfl rfl rfl methods

theorem kept_readRoutine (h : MembersKept .routine routineKeys ms ms') :
    Kept readRoutine (ofMembers ms) (ofMembers ms') := by
  intro r hr
  obtain ⟨fs, hfs, name, kind, declaring, reflected, parameters, arguments, generic, static,
    returned, hidden, machine⟩ := readRoutine_eq_some_iff.1 hr
  obtain ⟨fs', hfs', found⟩ := h fs hfs
  refine readRoutine_eq_some_iff.2 ⟨fs', hfs', ?_, ?_, ?_, ?_, ?_, ?_, ?_, ?_, ?_, ?_, ?_⟩
  · exact required_of_foundKept (found _ (by decide)) rfl rfl name
  · exact required_of_foundKept (found _ (by decide)) rfl rfl kind
  · exact optional_of_foundKept (found _ (by decide)) rfl rfl rfl declaring
  · exact optional_of_foundKept (found _ (by decide)) rfl rfl rfl reflected
  · refine optional_of_partKept (found _ (by decide)) rfl rfl ?_ parameters
    rintro _ ⟨⟩ _ _ hv
    exact kept_toList hv
  · exact optional_of_foundKept (found _ (by decide)) rfl rfl rfl arguments
  · exact optional_of_foundKept (found _ (by decide)) rfl rfl rfl generic
  · exact optional_of_foundKept (found _ (by decide)) rfl rfl rfl static
  · refine optional_of_partKept (found _ (by decide)) rfl rfl ?_ returned
    rintro _ ⟨⟩ _ _ hv
    exact kept_toOption hv
  · exact optional_of_foundKept (found _ (by decide)) rfl rfl rfl hidden
  · exact optional_of_foundKept (found _ (by decide)) rfl rfl rfl machine

theorem kept_readCatalog (h : MembersKept .catalog ["types", "routines"] ms ms') :
    Kept readCatalog (ofMembers ms) (ofMembers ms') := by
  intro c hc
  obtain ⟨fs, hfs, types, routines⟩ := readCatalog_eq_some_iff.1 hc
  obtain ⟨fs', hfs', found⟩ := h fs hfs
  refine readCatalog_eq_some_iff.2 ⟨fs', hfs', ?_, ?_⟩
  · refine optional_of_partKept (found _ (by decide)) rfl rfl ?_ types
    rintro _ ⟨⟩ _ _ hv
    exact kept_toList hv
  · refine optional_of_partKept (found _ (by decide)) rfl rfl ?_ routines
    rintro _ ⟨⟩ _ _ hv
    exact kept_toList hv

theorem kept_ofJson? (h : MembersKept .snapshot ["metadata", "frames"] ms ms') :
    Kept ofJson? (ofMembers ms) (ofMembers ms') := by
  intro s hs
  obtain ⟨fs, hfs, catalog, frames⟩ := ofJson?_eq_some_iff.1 hs
  obtain ⟨fs', hfs', found⟩ := h fs hfs
  refine ofJson?_eq_some_iff.2 ⟨fs', hfs', ?_, ?_⟩
  · refine optional_of_partKept (found _ (by decide)) rfl (readCatalog_ofCatalog .empty) ?_ catalog
    rintro _ ⟨⟩ _ _ hv
    exact kept_of_partKept hv
  · refine optional_of_partKept (found _ (by decide)) rfl rfl ?_ frames
    rintro _ ⟨⟩ _ _ hv
    exact kept_toList hv

theorem recordKept_of_membersKept (h : ∀ keys ⊆ r.keys ms, MembersKept r keys ms ms')
    (fits : r = .shape → (∀ m ∈ ms, Fits m.2) → ∀ m ∈ ms', Fits m.2) :
    RecordKept r (ofMembers ms) (ofMembers ms') := by
  refine .mk ?_
  have all := h _ (List.Subset.refl _)
  cases r with
  | snapshot => exact kept_ofJson? all
  | catalog => exact kept_readCatalog all
  | type => exact kept_readType all
  | field => exact kept_readField all
  | property => exact kept_readProperty all
  | parameter => exact kept_readParameter all
  | routine => exact kept_readRoutine all
  | frame => exact kept_readFrame all
  | shape =>
    exact kept_readShape (h _ (by simp [Record.keys])) (h _ (List.subset_cons_self _ _)) (fits rfl)

/-! ## Edits keep what is read -/

theorem Note.fits {v : Json} (h : Note v) : Fits v := by
  cases h <;> exact ⟨rfl, Nat.zero_lt_succ _⟩

theorem Record.part?_shape (k : String) : Record.shape.part? k = none := by
  unfold Record.part?
  split <;> simp_all

/-- **An edit keeps what is read.** -/
theorem Edit.recordKept {v v' : Json} (h : Edit r v v') : RecordKept r v v' := by
  induction h with
  | reorder hp =>
    exact recordKept_of_membersKept (fun _ _ => membersKept_of_perm hp)
      fun _ hf m hm => hf m (hp.mem_iff.2 hm)
  | leaveOut hu =>
    refine recordKept_of_membersKept (fun _ _ => membersKept_of_leaveOut hu) fun _ hf m hm => ?_
    exact hf m (((List.sublist_cons_self _ _).append_left _).subset hm)
  | add hk hn =>
    refine recordKept_of_membersKept (fun _ hs => membersKept_of_add fun h => hk (hs h))
      fun _ hf m hm => ?_
    simp only [List.mem_append, List.mem_cons] at hm hf
    rcases hm with hm | rfl | hm
    · exact hf m (.inl hm)
    · exact hn.fits
    · exact hf m (.inr hm)
  | member hp _ ih =>
    refine recordKept_of_membersKept (fun _ _ => membersKept_of_part hp (.one ih)) ?_
    rintro rfl
    exact absurd ((Record.part?_shape _).symm.trans hp) nofun
  | item hp _ ih =>
    refine recordKept_of_membersKept (fun _ _ => membersKept_of_part hp (.many ih)) ?_
    rintro rfl
    exact absurd ((Record.part?_shape _).symm.trans hp) nofun

end ReadableTrace.Snapshot
