import ReadableTrace.Proofs.Json.Record
import ReadableTrace.Snapshot.Reader

/-!
# When a record is read

A record is read if its members are, each under its key (`readType_eq_some_iff` and so on). For a
shape these are the members that its kind asks for, and besides everything in it has to be sound
and not too deep (`readShape_ofMembers_eq_some_iff`).
-/

namespace ReadableTrace

namespace Json

variable {keys : List String} {ms : List (String × Json)} {fs : Fields} {k : String} {v : Json}

/-! ## Members by key -/

/-- An object of named members has the fields of a record if no known key repeats. -/
theorem fields_ofMembers_eq_some_iff :
    fields keys (ofMembers ms) = some fs ↔
      ((ms.filter (keys.contains ·.1)).map (·.1)).Nodup ∧ ms.filter (keys.contains ·.1) = fs := by
  by_cases h : ((ms.filter (keys.contains ·.1)).map (·.1)).Nodup
  · rw [fields_ofMembers h, Option.some.injEq, and_iff_right h]
  · refine ⟨fun hf => absurd ?_ h, fun hf => absurd hf.1 h⟩
    change knownMembers keys (ms.map fun m => (some m.1, m.2)) = some fs at hf
    clear h
    induction ms generalizing fs with
    | nil => exact .nil
    | cons m ms ih =>
      obtain ⟨k, v⟩ := m
      simp only [List.map_cons, knownMembers, Option.bind_eq_bind, Option.bind_eq_some_iff] at hf
      obtain ⟨others, ho, hf⟩ := hf
      have nodup := ih ho
      rw [List.filter_cons]
      by_cases hk : keys.contains k = true
      · simp only [hk, if_true, List.map_cons, List.nodup_cons]
        refine ⟨fun hm => ?_, nodup⟩
        have same : others = ms.filter (keys.contains ·.1) :=
          (Option.some.inj ((fields_ofMembers nodup).symm.trans ho)).symm
        have found : others.any (·.1 == k) = true := by
          obtain ⟨m, hm, hmk⟩ := List.mem_map.1 hm
          exact List.any_eq_true.2 ⟨m, same ▸ hm, beq_iff_eq.2 hmk⟩
        simp only [hk, found, if_true] at hf
        cases hf
      · simpa only [hk, if_false, Bool.false_eq_true] using nodup

/-- The fields of a record are the members of the object that have known keys. -/
theorem lookup_eq_some_iff_mem (h : fields keys (ofMembers ms) = some fs) (hk : k ∈ keys) :
    fs.lookup k = some v ↔ (k, v) ∈ ms := by
  obtain ⟨nodup, rfl⟩ := fields_ofMembers_eq_some_iff.1 h
  have known : (k, v) ∈ ms.filter (keys.contains ·.1) ↔ (k, v) ∈ ms := by
    simp [List.mem_filter, hk]
  rw [← known]
  generalize ms.filter (keys.contains ·.1) = fs at nodup
  induction fs with
  | nil => simp
  | cons m fs ih =>
    obtain ⟨j, u⟩ := m
    rw [List.map_cons, List.nodup_cons] at nodup
    rw [List.lookup_cons, List.mem_cons, Prod.mk.injEq]
    by_cases hj : k = j
    · subst hj
      have absent : (k, v) ∉ fs := fun hm => nodup.1 (List.mem_map.2 ⟨_, hm, rfl⟩)
      simp [absent, eq_comm]
    · have other : (k == j) = false := by simpa using hj
      simp [other, hj, ih nodup.2]

/-- An object that is read by a key has it at one place only. -/
theorem lookup_of_fields (h : fields keys (ofMembers ms) = some fs) (hk : k ∈ keys) :
    ms.lookup k = fs.lookup k := by
  rcases hl : ms.lookup k with _ | v
  · symm
    rw [Option.eq_none_iff_forall_ne_some]
    intro v hv
    have hm := (lookup_eq_some_iff_mem h hk).1 hv
    simpa using List.lookup_eq_none_iff.1 hl _ hm
  · obtain ⟨front, back, rfl, -⟩ := List.lookup_eq_some_iff.1 hl
    exact ((lookup_eq_some_iff_mem h hk).2 (by simp)).symm

end Json

namespace Snapshot

open Json

variable {v : Json}

/-! ## Records -/

theorem readField_eq_some_iff {f : Field} :
    readField v = some f ↔ ∃ fs, fields ["name", "field_type", "delegate_target"] v = some fs ∧
      fs.required "name" toString? = some f.name ∧
      fs.required "field_type" readTypeRef = some f.type ∧
      fs.optional "delegate_target" none (toOption? readRoutineRef) = some f.target := by
  simp only [readField, Option.bind_eq_bind, Option.bind_eq_some_iff, Option.some.injEq]
  constructor
  · rintro ⟨fs, h, _, h₁, _, h₂, _, h₃, rfl⟩
    exact ⟨fs, h, h₁, h₂, h₃⟩
  · rintro ⟨fs, h, h₁, h₂, h₃⟩
    exact ⟨fs, h, _, h₁, _, h₂, _, h₃, rfl⟩

theorem readProperty_eq_some_iff {p : Property} :
    readProperty v = some p ↔
      ∃ fs, fields ["name", "getter", "setter", "index_parameter_count"] v = some fs ∧
        fs.required "name" toString? = some p.name ∧
        fs.optional "getter" none (toOption? readRoutineRef) = some p.getter ∧
        fs.optional "setter" none (toOption? readRoutineRef) = some p.setter ∧
        fs.optional "index_parameter_count" 0 toUInt64? = some p.indexCount := by
  simp only [readProperty, Option.bind_eq_bind, Option.bind_eq_some_iff, Option.some.injEq]
  constructor
  · rintro ⟨fs, h, _, h₁, _, h₂, _, h₃, _, h₄, rfl⟩
    exact ⟨fs, h, h₁, h₂, h₃, h₄⟩
  · rintro ⟨fs, h, h₁, h₂, h₃, h₄⟩
    exact ⟨fs, h, _, h₁, _, h₂, _, h₃, _, h₄, rfl⟩

theorem readType_eq_some_iff {t : TypeEntry} :
    readType v = some t ↔ ∃ fs, fields typeKeys v = some fs ∧
      fs.required "name" toString? = some t.name ∧
      fs.optional "namespace" none (toOption? toString?) = some t.space ∧
      fs.optional "full_name" none (toOption? toString?) = some t.fullName ∧
      fs.optional "shape" .plain readShape = some t.shape ∧
      fs.optional "declaring_type" none (toOption? readTypeRef) = some t.enclosing ∧
      fs.optional "interfaces" [] (toList? toString?) = some t.interfaces ∧
      fs.optional "fields" [] (toList? readField) = some t.fields ∧
      fs.optional "properties" [] (toList? readProperty) = some t.properties ∧
      fs.optional "methods" [] (toList? readRoutineRef) = some t.methods := by
  simp only [readType, Option.bind_eq_bind, Option.bind_eq_some_iff, Option.some.injEq]
  constructor
  · rintro ⟨fs, h, _, h₁, _, h₂, _, h₃, _, h₄, _, h₅, _, h₆, _, h₇, _, h₈, _, h₉, rfl⟩
    exact ⟨fs, h, h₁, h₂, h₃, h₄, h₅, h₆, h₇, h₈, h₉⟩
  · rintro ⟨fs, h, h₁, h₂, h₃, h₄, h₅, h₆, h₇, h₈, h₉⟩
    exact ⟨fs, h, _, h₁, _, h₂, _, h₃, _, h₄, _, h₅, _, h₆, _, h₇, _, h₈, _, h₉, rfl⟩

theorem readParameter_eq_some_iff {p : Parameter} :
    readParameter v = some p ↔ ∃ fs, fields parameterKeys v = some fs ∧
      fs.optional "name" none (toOption? toString?) = some p.name ∧
      fs.required "parameter_type" readTypeRef = some p.type ∧
      fs.optional "is_params_array" false toBool? = some p.isVariadic ∧
      fs.optional "is_out" false toBool? = some p.isOut ∧
      fs.optional "is_in" false toBool? = some p.isIn ∧
      fs.optional "is_dynamic" false toBool? = some p.isDynamic ∧
      fs.optional "tuple_element_names" none
        (toOption? (toList? (toOption? toString?))) = some p.elementNames ∧
      fs.optional "default_value" none (toOption? readDefault) = some p.default := by
  simp only [readParameter, Option.bind_eq_bind, Option.bind_eq_some_iff, Option.some.injEq]
  constructor
  · rintro ⟨fs, h, _, h₁, _, h₂, _, h₃, _, h₄, _, h₅, _, h₆, _, h₇, _, h₈, rfl⟩
    exact ⟨fs, h, h₁, h₂, h₃, h₄, h₅, h₆, h₇, h₈⟩
  · rintro ⟨fs, h, h₁, h₂, h₃, h₄, h₅, h₆, h₇, h₈⟩
    exact ⟨fs, h, _, h₁, _, h₂, _, h₃, _, h₄, _, h₅, _, h₆, _, h₇, _, h₈, rfl⟩

theorem readRoutine_eq_some_iff {r : Routine} :
    readRoutine v = some r ↔ ∃ fs, fields routineKeys v = some fs ∧
      fs.required "name" toString? = some r.name ∧
      fs.required "kind" readRoutineKind = some r.kind ∧
      fs.optional "declaring_type" none (toOption? readTypeRef) = some r.declaring ∧
      fs.optional "reflected_type" none (toOption? readTypeRef) = some r.reflected ∧
      fs.optional "parameters" [] (toList? readParameter) = some r.parameters ∧
      fs.optional "generic_arguments" [] (toList? readTypeRef) = some r.genericArguments ∧
      fs.optional "is_generic_method" false toBool? = some r.isGeneric ∧
      fs.optional "is_static" false toBool? = some r.isStatic ∧
      fs.optional "return_parameter" none (toOption? readParameter) = some r.returned ∧
      fs.optional "hidden_in_trace" false toBool? = some r.isHidden ∧
      fs.optional "state_machine_type" none (toOption? readTypeRef) = some r.machine := by
  simp only [readRoutine, Option.bind_eq_bind, Option.bind_eq_some_iff, Option.some.injEq]
  constructor
  · rintro ⟨fs, h, _, h₁, _, h₂, _, h₃, _, h₄, _, h₅, _, h₆, _, h₇, _, h₈, _, h₉, _, h₁₀, _, h₁₁,
      rfl⟩
    exact ⟨fs, h, h₁, h₂, h₃, h₄, h₅, h₆, h₇, h₈, h₉, h₁₀, h₁₁⟩
  · rintro ⟨fs, h, h₁, h₂, h₃, h₄, h₅, h₆, h₇, h₈, h₉, h₁₀, h₁₁⟩
    exact ⟨fs, h, _, h₁, _, h₂, _, h₃, _, h₄, _, h₅, _, h₆, _, h₇, _, h₈, _, h₉, _, h₁₀, _, h₁₁,
      rfl⟩

theorem readFrame_eq_some_iff {f : Frame} :
    readFrame v = some f ↔ ∃ fs, fields ["routine", "file_name", "line_number"] v = some fs ∧
      fs.optional "routine" none (toOption? readRoutineRef) = some f.routine ∧
      fs.optional "file_name" none (toOption? toString?) = some f.file ∧
      fs.optional "line_number" none (toOption? toUInt32?) = some f.line := by
  simp only [readFrame, Option.bind_eq_bind, Option.bind_eq_some_iff, Option.some.injEq]
  constructor
  · rintro ⟨fs, h, _, h₁, _, h₂, _, h₃, rfl⟩
    exact ⟨fs, h, h₁, h₂, h₃⟩
  · rintro ⟨fs, h, h₁, h₂, h₃⟩
    exact ⟨fs, h, _, h₁, _, h₂, _, h₃, rfl⟩

theorem readCatalog_eq_some_iff {c : Catalog} :
    readCatalog v = some c ↔ ∃ fs, fields ["types", "routines"] v = some fs ∧
      fs.optional "types" [] (toList? readType) = some c.types.toList ∧
      fs.optional "routines" [] (toList? readRoutine) = some c.routines.toList := by
  simp only [readCatalog, Option.bind_eq_bind, Option.bind_eq_some_iff, Option.some.injEq]
  constructor
  · rintro ⟨fs, h, _, h₁, _, h₂, rfl⟩
    exact ⟨fs, h, h₁, h₂⟩
  · rintro ⟨fs, h, h₁, h₂⟩
    exact ⟨fs, h, _, h₁, _, h₂, rfl⟩

theorem ofJson?_eq_some_iff {s : Snapshot} :
    ofJson? v = some s ↔ ∃ fs, fields ["metadata", "frames"] v = some fs ∧
      fs.optional "metadata" .empty readCatalog = some s.catalog ∧
      fs.optional "frames" [] (toList? readFrame) = some s.frames := by
  simp only [ofJson?, Option.bind_eq_bind, Option.bind_eq_some_iff, Option.some.injEq]
  constructor
  · rintro ⟨fs, h, _, h₁, _, h₂, rfl⟩
    exact ⟨fs, h, h₁, h₂⟩
  · rintro ⟨fs, h, h₁, h₂⟩
    exact ⟨fs, h, _, h₁, _, h₂, rfl⟩

/-! ## Shapes -/

/-- The keys of a shape, besides the kind, by its kind. -/
def shapeKeys : String → List String
  | "array" => ["element", "rank"]
  | "by_ref" => ["element"]
  | "nullable" => ["underlying"]
  | "generic" => ["definition", "arguments"]
  | _ => []

/-- The kind that the members of a shape name. -/
def kindOf (ms : List (String × Json)) : String := ((ms.lookup "kind").bind toString?).getD ""

/-- The value is sound and may stand in a shape. -/
def Fits (v : Json) : Prop := v.isSound = true ∧ v.depth < maxShapeDepth

variable {ms : List (String × Json)}

theorem fits_ofMembers_iff :
    ((ofMembers ms).isSound = true ∧ ¬ maxShapeDepth < (ofMembers ms).depth) ↔
      ∀ m ∈ ms, Fits m.2 := by
  have sound : membersAreSound (ms.map fun m => (some m.1, m.2)) = true ↔
      ∀ m ∈ ms, m.2.isSound = true := by
    induction ms with
    | nil => simp [membersAreSound]
    | cons m ms ih => simp [membersAreSound, ih]
  have shallow (n : Nat) : depthOfMembers (ms.map fun m => (some m.1, m.2)) < n + 1 ↔
      ∀ m ∈ ms, m.2.depth < n + 1 := by
    clear sound
    induction ms with
    | nil => simp [depthOfMembers]
    | cons m ms ih => simp only [List.map_cons, depthOfMembers, List.forall_mem_cons, ← ih]; omega
  have hd : ¬ maxShapeDepth < (ofMembers ms).depth ↔
      depthOfMembers (ms.map fun m => (some m.1, m.2)) < 122 + 1 := by
    rw [ofMembers, depth, maxShapeDepth]
    omega
  rw [hd, shallow, ofMembers, isSound, sound]
  exact forall₂_and.symm

theorem fields_filter (ms : List (String × Json)) {keys : List String} (h : "kind" ∉ keys) :
    fields keys (.object ((ms.map fun m => (some m.1, m.2)).filter (·.1 != some "kind"))) =
      fields keys (ofMembers ms) := by
  have named : (ms.map fun m => (some m.1, m.2)).filter (·.1 != some "kind") =
      (ms.filter (·.1 != "kind")).map fun m => (some m.1, m.2) := by
    rw [List.filter_map]
    congr 2
  have same : (ms.filter (·.1 != "kind")).filter (keys.contains ·.1) =
      ms.filter (keys.contains ·.1) := by
    rw [List.filter_filter]
    refine List.filter_congr fun m _ => ?_
    rw [Bool.and_eq_left_iff_imp]
    intro hm
    exact bne_iff_ne.2 fun hk => h (hk ▸ List.contains_iff_mem.1 hm)
  rw [named]
  change fields keys (ofMembers _) = _
  refine Option.ext fun fs => ?_
  rw [fields_ofMembers_eq_some_iff, fields_ofMembers_eq_some_iff, same]

/-- The kind of a shape is read by the keys of the kind. -/
theorem readShapeOfKind_filter (kind : String) :
    readShapeOfKind kind (.object ((ms.map fun m => (some m.1, m.2)).filter (·.1 != some "kind"))) =
      readShapeOfKind kind (ofMembers ms) := by
  have array := fields_filter ms (show "kind" ∉ ["element", "rank"] by decide)
  have byRef := fields_filter ms (show "kind" ∉ ["element"] by decide)
  have nullable := fields_filter ms (show "kind" ∉ ["underlying"] by decide)
  have generic := fields_filter ms (show "kind" ∉ ["definition", "arguments"] by decide)
  unfold readShapeOfKind
  split
  · rfl
  · rw [array]
  · rw [byRef]
  · rw [nullable]
  · rw [generic]
  · rfl

theorem readShape_ofMembers_eq_some_iff {s : Shape} :
    readShape (ofMembers ms) = some s ↔ (∀ m ∈ ms, Fits m.2) ∧
      ∃ tag kind, fields ["kind"] (ofMembers ms) = some tag ∧
        tag.required "kind" toString? = some kind ∧
        readShapeOfKind kind (ofMembers ms) = some s := by
  unfold readShape
  split
  case isTrue h =>
    refine ⟨nofun, fun hs => ?_⟩
    obtain ⟨sound, shallow⟩ := fits_ofMembers_iff.2 hs.1
    simp [sound, shallow] at h
  case isFalse h =>
    have fits : ∀ m ∈ ms, Fits m.2 := fits_ofMembers_iff.1 (by simpa using h)
    rw [and_iff_right fits, ofMembers]
    simp only [readShapeOfKind_filter, Option.bind_eq_bind, Option.bind_eq_some_iff]
    constructor
    · rintro ⟨tag, ht, kind, hk, hs⟩
      exact ⟨tag, kind, ht, hk, hs⟩
    · rintro ⟨tag, kind, ht, hk, hs⟩
      exact ⟨tag, ht, kind, hk, hs⟩

theorem exists_fields_of_readShapeOfKind {kind k : String} {s : Shape}
    (h : readShapeOfKind kind v = some s) (hk : k ∈ shapeKeys kind) :
    ∃ fs, fields (shapeKeys kind) v = some fs := by
  unfold readShapeOfKind at h
  split at h
  · cases hk
  · exact (Option.bind_eq_some_iff.1 h).imp fun _ hf => hf.1
  · exact (Option.bind_eq_some_iff.1 h).imp fun _ hf => hf.1
  · exact (Option.bind_eq_some_iff.1 h).imp fun _ hf => hf.1
  · exact (Option.bind_eq_some_iff.1 h).imp fun _ hf => hf.1
  · cases h

/-- The kind that is read is the kind that the members name. -/
theorem kindOf_eq {tag : Fields} {kind : String} (ht : fields ["kind"] (ofMembers ms) = some tag)
    (hk : tag.required "kind" toString? = some kind) : kindOf ms = kind := by
  rw [kindOf, lookup_of_fields ht (by decide)]
  exact congrArg (·.getD "") hk

end Snapshot

end ReadableTrace
