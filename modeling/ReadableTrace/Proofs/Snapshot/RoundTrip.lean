import ReadableTrace.Proofs.Json.Pretty
import ReadableTrace.Proofs.Json.Record
import ReadableTrace.Snapshot.Printer
import ReadableTrace.Snapshot.Reader

/-!
# Snapshots are read back

Every record is read back from the value that is written for it, from references up to whole
snapshots (`ofJson?_toJson`), and that value is plain (`isPlain_toJson`). So a snapshot is read back
from its text (`ofText?_pretty`).
-/

namespace ReadableTrace.Snapshot

open Json

variable {α : Type} {write : α → Json} {read : Json → Option α}

/-! ## Options and lists -/

theorem toOption?_ofOption (hw : ∀ a, write a ≠ .null) (h : ∀ a, read (write a) = some a)
    (o : Option α) : toOption? read (ofOption write o) = some o := by
  cases o with
  | none => rfl
  | some a =>
    rw [ofOption, toOption?, h]
    · rfl
    · exact hw a

theorem toList?_ofList (h : ∀ a, read (write a) = some a) (as : List α) :
    toList? read (ofList write as) = some as := by
  rw [ofList, toList?]
  induction as with
  | nil => rfl
  | cons a as ih => simp [h, ih]

/-! ## References -/

@[simp] theorem readTypeRef_ofTypeRef (r : TypeRef) : readTypeRef (ofTypeRef r) = some r := by
  simp [readTypeRef, ofTypeRef]

@[simp] theorem readRoutineRef_ofRoutineRef (r : RoutineRef) :
    readRoutineRef (ofRoutineRef r) = some r := by
  simp [readRoutineRef, ofRoutineRef]

@[simp] theorem toOption?_typeRef (o : Option TypeRef) :
    toOption? readTypeRef (ofOption ofTypeRef o) = some o :=
  toOption?_ofOption (by nofun) readTypeRef_ofTypeRef o

@[simp] theorem toOption?_routineRef (o : Option RoutineRef) :
    toOption? readRoutineRef (ofOption ofRoutineRef o) = some o :=
  toOption?_ofOption (by nofun) readRoutineRef_ofRoutineRef o

@[simp] theorem toString?_ofString (s : String) : toString? (ofString s) = some s := rfl

@[simp] theorem toOption?_string (o : Option String) :
    toOption? toString? (ofOption ofString o) = some o :=
  toOption?_ofOption (by nofun) toString?_ofString o

/-! ## Records -/

theorem readField_ofField (f : Field) : readField (ofField f) = some f := by
  have hf : fields ["name", "field_type", "delegate_target"] (ofField f) = some _ :=
    fields_of_keys rfl (by decide)
  simp [readField, hf]

theorem readProperty_ofProperty (p : Property) : readProperty (ofProperty p) = some p := by
  have hf : fields ["name", "getter", "setter", "index_parameter_count"] (ofProperty p) = some _ :=
    fields_of_keys rfl (by decide)
  simp [readProperty, hf]

theorem readFrame_ofFrame (f : Frame) : readFrame (ofFrame f) = some f := by
  have hf : fields ["routine", "file_name", "line_number"] (ofFrame f) = some _ :=
    fields_of_keys rfl (by decide)
  have hl : toOption? toUInt32? (ofOption (fun n => ofNat n.toNat) f.line) = some f.line :=
    toOption?_ofOption (by nofun) toUInt32?_ofNat f.line
  simp [readFrame, hf, hl]

/-! ## Shapes -/

theorem isSound_ofUInt32 (n : UInt32) : (ofNat n.toNat).isSound = true := by
  have h : n.toNat.log2 < 53 := by
    by_cases h0 : n.toNat = 0
    · rw [h0]
      decide
    · have := n.toNat_lt
      exact (Nat.log2_lt h0).2 (by omega)
  simp [ofNat, isSound, Number.isTooLarge_ofNat h]

theorem depth_ofNat (n : Nat) : (ofNat n).depth = 0 := by
  simp [ofNat, depth]

theorem areSound_ofTypeRefs (rs : List TypeRef) : areSound (rs.map ofTypeRef) = true := by
  induction rs with
  | nil => rfl
  | cons r rs ih => simp [areSound, ofTypeRef, isSound_ofUInt32, ih]

theorem depthOfItems_ofTypeRefs (rs : List TypeRef) : depthOfItems (rs.map ofTypeRef) = 0 := by
  induction rs with
  | nil => rfl
  | cons r rs ih => simp [depthOfItems, ofTypeRef, depth_ofNat, ih]

/-- What is written for a shape is sound, and far less deep than it may be. -/
theorem isSound_ofShape (s : Shape) : (ofShape s).isSound = true ∧ (ofShape s).depth ≤ 2 := by
  cases s with
  | generic d args =>
    cases d <;>
      simp [ofShape, ofMembers, ofString, ofOption, ofList, ofTypeRef, isSound, membersAreSound,
        areSound_ofTypeRefs, isSound_ofUInt32, depth, depthOfMembers, depthOfItems_ofTypeRefs,
        depth_ofNat]
  | _ =>
    simp [ofShape, ofMembers, ofString, ofTypeRef, isSound, membersAreSound, isSound_ofUInt32,
      depth, depthOfMembers, depth_ofNat]

theorem readShape_ofShape (s : Shape) : readShape (ofShape s) = some s := by
  obtain ⟨hs, hd⟩ := isSound_ofShape s
  have shallow : ¬ maxShapeDepth < (ofShape s).depth := by
    unfold maxShapeDepth
    omega
  unfold readShape
  rw [if_neg (by simp [hs, shallow])]
  cases s with
  | plain => rfl
  | generic d args =>
    have ha := toList?_ofList readTypeRef_ofTypeRef args
    simp [ofShape, ofMembers, fields, knownMembers, readShapeOfKind, ha]
  | _ => simp [ofShape, ofMembers, fields, knownMembers, readShapeOfKind]

/-! ## Types and routines -/

theorem readType_ofType (t : TypeEntry) : readType (ofType t) = some t := by
  have hf : fields typeKeys (ofType t) = some _ := fields_of_keys rfl (by decide)
  have hi := toList?_ofList toString?_ofString t.interfaces
  have hfs := toList?_ofList readField_ofField t.fields
  have hp := toList?_ofList readProperty_ofProperty t.properties
  have hm := toList?_ofList readRoutineRef_ofRoutineRef t.methods
  simp [readType, hf, hi, hfs, hp, hm, readShape_ofShape]

theorem readDefault_ofDefault (d : DefaultValue) : readDefault (ofDefault d) = some d := by
  cases d <;> rfl

theorem readParameter_ofParameter (p : Parameter) : readParameter (ofParameter p) = some p := by
  have hf : fields parameterKeys (ofParameter p) = some _ := fields_of_keys rfl (by decide)
  have he : toOption? (toList? (toOption? toString?))
      (ofOption (ofList (ofOption ofString)) p.elementNames) = some p.elementNames :=
    toOption?_ofOption (by nofun) (toList?_ofList toOption?_string) p.elementNames
  have hd := toOption?_ofOption (by rintro (_ | _) <;> nofun) readDefault_ofDefault p.default
  simp [readParameter, hf, he, hd, toBool?]

theorem readRoutineKind_ofRoutineKind (k : RoutineKind) :
    readRoutineKind (ofRoutineKind k) = some k := by
  cases k <;> rfl

theorem readRoutine_ofRoutine (r : Routine) : readRoutine (ofRoutine r) = some r := by
  have hf : fields routineKeys (ofRoutine r) = some _ := fields_of_keys rfl (by decide)
  have hp := toList?_ofList readParameter_ofParameter r.parameters
  have hg := toList?_ofList readTypeRef_ofTypeRef r.genericArguments
  have hr := toOption?_ofOption (by nofun) readParameter_ofParameter r.returned
  simp [readRoutine, hf, hp, hg, hr, readRoutineKind_ofRoutineKind, toBool?]

/-! ## Snapshots -/

theorem readCatalog_ofCatalog (c : Catalog) : readCatalog (ofCatalog c) = some c := by
  have hf : fields ["types", "routines"] (ofCatalog c) = some _ := fields_of_keys rfl (by decide)
  have ht := toList?_ofList readType_ofType c.types.toList
  have hr := toList?_ofList readRoutine_ofRoutine c.routines.toList
  simp [readCatalog, hf, ht, hr]

/-- A snapshot is read back from the value that is written for it. -/
theorem ofJson?_toJson (s : Snapshot) : ofJson? s.toJson = some s := by
  have hf : fields ["metadata", "frames"] s.toJson = some _ := fields_of_keys rfl (by decide)
  have hs := toList?_ofList readFrame_ofFrame s.frames
  simp [ofJson?, hf, hs, readCatalog_ofCatalog]

/-! ## Texts -/

theorem isPlain_ofOption (h : ∀ a, (write a).isPlain = true) (o : Option α) :
    (ofOption write o).isPlain = true := by
  cases o with
  | none => rfl
  | some a => exact h a

theorem isPlain_ofList (h : ∀ a, (write a).isPlain = true) (as : List α) :
    (ofList write as).isPlain = true := by
  rw [ofList, isPlain_list]
  intro v hv
  obtain ⟨a, -, rfl⟩ := List.mem_map.1 hv
  exact h a

theorem isPlain_ofTypeRef (r : TypeRef) : (ofTypeRef r).isPlain = true := rfl

theorem isPlain_ofRoutineRef (r : RoutineRef) : (ofRoutineRef r).isPlain = true := rfl

theorem isPlain_ofShape (s : Shape) : (ofShape s).isPlain = true := by
  cases s <;>
    simp [ofShape, isPlain_ofTypeRef, isPlain_ofOption isPlain_ofTypeRef,
      isPlain_ofList isPlain_ofTypeRef]

theorem isPlain_ofField (f : Field) : (ofField f).isPlain = true := by
  simp [ofField, isPlain_ofTypeRef, isPlain_ofOption isPlain_ofRoutineRef]

theorem isPlain_ofProperty (p : Property) : (ofProperty p).isPlain = true := by
  simp [ofProperty, isPlain_ofOption isPlain_ofRoutineRef]

theorem isPlain_ofType (t : TypeEntry) : (ofType t).isPlain = true := by
  simp [ofType, isPlain_ofShape, isPlain_ofOption isPlain_ofString,
    isPlain_ofOption isPlain_ofTypeRef, isPlain_ofList isPlain_ofString,
    isPlain_ofList isPlain_ofField, isPlain_ofList isPlain_ofProperty,
    isPlain_ofList isPlain_ofRoutineRef]

theorem isPlain_ofDefault (d : DefaultValue) : (ofDefault d).isPlain = true := by
  cases d <;> rfl

theorem isPlain_ofParameter (p : Parameter) : (ofParameter p).isPlain = true := by
  simp [ofParameter, isPlain, isPlain_ofTypeRef, isPlain_ofOption isPlain_ofString,
    isPlain_ofOption (isPlain_ofList (isPlain_ofOption isPlain_ofString)),
    isPlain_ofOption isPlain_ofDefault]

theorem isPlain_ofRoutineKind (k : RoutineKind) : (ofRoutineKind k).isPlain = true := by
  cases k <;> rfl

theorem isPlain_ofRoutine (r : Routine) : (ofRoutine r).isPlain = true := by
  simp [ofRoutine, isPlain, isPlain_ofRoutineKind, isPlain_ofOption isPlain_ofTypeRef,
    isPlain_ofList isPlain_ofParameter, isPlain_ofList isPlain_ofTypeRef,
    isPlain_ofOption isPlain_ofParameter]

theorem isPlain_ofFrame (f : Frame) : (ofFrame f).isPlain = true := by
  simp [ofFrame, isPlain_ofOption isPlain_ofRoutineRef, isPlain_ofOption isPlain_ofString,
    isPlain_ofOption fun n : UInt32 => isPlain_ofNat n.toNat]

theorem isPlain_toJson (s : Snapshot) : s.toJson.isPlain = true := by
  simp [toJson, ofCatalog, isPlain_ofList isPlain_ofType, isPlain_ofList isPlain_ofRoutine,
    isPlain_ofList isPlain_ofFrame]

/-- **Snapshots are read back.** Whatever a snapshot holds, reading its text succeeds and gives the
same snapshot. -/
theorem ofText?_pretty (s : Snapshot) : ofText? s.pretty = some s := by
  rw [ofText?, pretty, ofText?_pretty_of_isPlain (isPlain_toJson s), Option.bind_some,
    ofJson?_toJson]

end ReadableTrace.Snapshot
