import ReadableTrace.Proofs.Json.Pretty
import ReadableTrace.Proofs.Snapshot.Respelling
import Mathlib.Logic.Relation

/-!
# Documents written by hand

A document that is made from the one written for a snapshot by any number of edits, and is spelled
with any blanks between its parts, is read as the snapshot (`ofText?_of_respelled`). A document in
which a record has a known key twice is never read (`Repeats.read_eq_none`).
-/

namespace ReadableTrace

namespace Json

/-- The text spells the value, with blanks around it and between its parts. -/
def Spells (text : String) (v : Json) : Prop :=
  ∃ b cs b', Blanks b ∧ Written v cs ∧ Blanks b' ∧ text.toList = b ++ cs ++ b'

theorem ofText?_of_spells {text : String} {v : Json} (h : Spells text v) :
    ofText? text = some v := by
  obtain ⟨b, cs, b', hb, hw, hb', ht⟩ := h
  rw [ofText?, ht, ofChars?_of_written hb hw hb']

theorem spells_pretty {v : Json} (h : v.isPlain = true) : Spells v.pretty v := by
  refine ⟨[], print 0 v, [], blanks_nil, written_print v h 0, blanks_nil, ?_⟩
  rw [pretty, String.toList_ofList, List.nil_append, List.append_nil]

end Json

namespace Snapshot

open Json Relation

/-- A record, the one given or one inside it, has a known key more than once. -/
inductive Repeats : Record → Json → Prop
  | here {r k ms} : k ∈ r.keys ms → 2 ≤ (ms.map (·.1)).count k → Repeats r (ofMembers ms)
  | member {r r' k w ms} : (k, w) ∈ ms → r.part? k = some (.one r') → Repeats r' w →
    Repeats r (ofMembers ms)
  | item {r r' k w ws ms} : (k, .list ws) ∈ ms → r.part? k = some (.many r') → w ∈ ws →
    Repeats r' w → Repeats r (ofMembers ms)

variable {r : Record} {v w : Json} {ms : List (String × Json)} {k : String}

/-! ## Edited documents -/

/-- An edited document can still be written down. -/
theorem Edit.isPlain (h : Edit r v w) (hv : v.isPlain = true) : w.isPlain = true := by
  induction h with
  | reorder hp =>
    rw [isPlain_ofMembers] at hv ⊢
    exact fun m hm => hv m (hp.mem_iff.2 hm)
  | leaveOut _ =>
    rw [isPlain_ofMembers] at hv ⊢
    exact fun m hm => hv m (((List.sublist_cons_self _ _).append_left _).subset hm)
  | add _ hn =>
    have note : ∀ {u}, Note u → u.isPlain = true := by rintro _ ⟨⟩ <;> rfl
    simp only [isPlain_ofMembers, List.forall_mem_append, List.forall_mem_cons] at hv ⊢
    exact ⟨hv.1, note hn, hv.2⟩
  | member _ _ ih =>
    simp only [isPlain_ofMembers, List.forall_mem_append, List.forall_mem_cons] at hv ⊢
    exact ⟨hv.1, ih hv.2.1, hv.2.2⟩
  | item _ _ ih =>
    simp only [isPlain_ofMembers, isPlain_list, List.forall_mem_append, List.forall_mem_cons]
      at hv ⊢
    obtain ⟨hf, ⟨hi, hw, hi'⟩, hb⟩ := hv
    exact ⟨hf, ⟨hi, ih hw, hi'⟩, hb⟩

theorem isPlain_of_edits (h : ReflTransGen (Edit r) v w) (hv : v.isPlain = true) :
    w.isPlain = true := by
  induction h with
  | refl => exact hv
  | tail _ e ih => exact e.isPlain ih

theorem Edit.kept (h : Edit r v w) : Kept r.read v w := by
  cases h.recordKept with
  | mk kept => exact kept

/-- What is read from a document is read from it after any number of edits. -/
theorem kept_of_edits (h : ReflTransGen (Edit r) v w) : Kept r.read v w := by
  induction h with
  | refl => exact fun _ ha => ha
  | tail _ e ih => exact fun a ha => e.kept a (ih a ha)

/-! ## Repeated members -/

theorem fields_eq_none_of_repeated {keys : List String} (hk : k ∈ keys)
    (h : 2 ≤ (ms.map (·.1)).count k) : fields keys (ofMembers ms) = none := by
  rw [Option.eq_none_iff_forall_ne_some]
  intro fs hf
  have once := List.nodup_iff_count_le_one.1 (nodup_of_fields hf) k
  have same : (ms.filter (keys.contains ·.1)).map (·.1) = (ms.map (·.1)).filter keys.contains :=
    (List.filter_map (f := Prod.fst) (p := keys.contains)).symm
  rw [same, List.count_filter (List.contains_iff_mem.2 hk)] at once
  omega

/-- A record that is read is read by each of the keys it knows. -/
theorem exists_fields_of_read {a : r.Value} (h : r.read (ofMembers ms) = some a)
    (hk : k ∈ r.keys ms) : ∃ keys fs, k ∈ keys ∧ fields keys (ofMembers ms) = some fs := by
  cases r with
  | snapshot =>
    obtain ⟨fs, hf, -⟩ := ofJson?_eq_some_iff.1 h
    exact ⟨_, fs, hk, hf⟩
  | catalog =>
    obtain ⟨fs, hf, -⟩ := readCatalog_eq_some_iff.1 h
    exact ⟨_, fs, hk, hf⟩
  | type =>
    obtain ⟨fs, hf, -⟩ := readType_eq_some_iff.1 h
    exact ⟨_, fs, hk, hf⟩
  | field =>
    obtain ⟨fs, hf, -⟩ := readField_eq_some_iff.1 h
    exact ⟨_, fs, hk, hf⟩
  | property =>
    obtain ⟨fs, hf, -⟩ := readProperty_eq_some_iff.1 h
    exact ⟨_, fs, hk, hf⟩
  | parameter =>
    obtain ⟨fs, hf, -⟩ := readParameter_eq_some_iff.1 h
    exact ⟨_, fs, hk, hf⟩
  | routine =>
    obtain ⟨fs, hf, -⟩ := readRoutine_eq_some_iff.1 h
    exact ⟨_, fs, hk, hf⟩
  | frame =>
    obtain ⟨fs, hf, -⟩ := readFrame_eq_some_iff.1 h
    exact ⟨_, fs, hk, hf⟩
  | shape =>
    obtain ⟨-, tag, kind, ht, hkind, hs⟩ := readShape_ofMembers_eq_some_iff.1 h
    rcases List.mem_cons.1 hk with rfl | hk
    · exact ⟨_, tag, List.mem_singleton_self _, ht⟩
    · rw [kindOf_eq ht hkind] at hk
      obtain ⟨fs, hf⟩ := exists_fields_of_readShapeOfKind hs hk
      exact ⟨_, fs, hk, hf⟩

/-- Whether the records that a member holds are read, if it holds any. -/
def Part.IsRead : Part → Json → Prop
  | .one r, w => w = .null ∨ ∃ a, r.read w = some a
  | .many r, w => ∀ ws, w = .list ws → ∀ x ∈ ws, ∃ a, r.read x = some a

section Members

variable {α : Type} {read : Json → Option α} {absent a : α} {keys : List String} {fs : Fields}

theorem read_of_optional (hf : fields keys (ofMembers ms) = some fs) (hk : k ∈ keys)
    (hm : (k, w) ∈ ms) (ha : fs.optional k absent read = some a) : read w = some a := by
  rw [Fields.optional, (lookup_eq_some_iff_mem hf hk).2 hm] at ha
  exact ha

theorem Part.isRead_of_toOption {a : Option r.Value} (h : toOption? r.read w = some a) :
    (Part.one r).IsRead w := by
  cases w with
  | null => exact .inl rfl
  | _ => exact .inr ((Option.map_eq_some_iff.1 h).imp fun _ hb => hb.1)

theorem Part.isRead_of_toList {as : List r.Value} (h : toList? r.read w = some as) :
    (Part.many r).IsRead w := by
  rintro ws rfl x hx
  obtain ⟨front, back, rfl⟩ := List.mem_iff_append.1 hx
  simp only [toList?, List.mapM_append, List.mapM_cons, Option.bind_eq_bind, Option.pure_def,
    Option.bind_eq_some_iff] at h
  obtain ⟨_, _, _, ⟨b, hb, _⟩, _⟩ := h
  exact ⟨b, hb⟩

end Members

/-- The records inside a record that is read are read. -/
theorem isRead_of_read {a : r.Value} {p : Part} (h : r.read (ofMembers ms) = some a)
    (hp : r.part? k = some p) (hm : (k, w) ∈ ms) : p.IsRead w := by
  unfold Record.part? at hp
  split at hp <;> cases hp
  · obtain ⟨fs, hf, catalog, -⟩ := ofJson?_eq_some_iff.1 h
    exact .inr ⟨_, read_of_optional hf (by decide) hm catalog⟩
  · obtain ⟨fs, hf, -, frames⟩ := ofJson?_eq_some_iff.1 h
    exact Part.isRead_of_toList (read_of_optional hf (by decide) hm frames)
  · obtain ⟨fs, hf, types, -⟩ := readCatalog_eq_some_iff.1 h
    exact Part.isRead_of_toList (read_of_optional hf (by decide) hm types)
  · obtain ⟨fs, hf, -, routines⟩ := readCatalog_eq_some_iff.1 h
    exact Part.isRead_of_toList (read_of_optional hf (by decide) hm routines)
  · obtain ⟨fs, hf, -, -, -, shape, -⟩ := readType_eq_some_iff.1 h
    exact .inr ⟨_, read_of_optional hf (by decide) hm shape⟩
  · obtain ⟨fs, hf, -, -, -, -, -, -, inner, -⟩ := readType_eq_some_iff.1 h
    exact Part.isRead_of_toList (read_of_optional hf (by decide) hm inner)
  · obtain ⟨fs, hf, -, -, -, -, -, -, -, properties, -⟩ := readType_eq_some_iff.1 h
    exact Part.isRead_of_toList (read_of_optional hf (by decide) hm properties)
  · obtain ⟨fs, hf, -, -, -, -, parameters, -⟩ := readRoutine_eq_some_iff.1 h
    exact Part.isRead_of_toList (read_of_optional hf (by decide) hm parameters)
  · obtain ⟨fs, hf, -, -, -, -, -, -, -, -, returned, -⟩ := readRoutine_eq_some_iff.1 h
    exact Part.isRead_of_toOption (read_of_optional hf (by decide) hm returned)

theorem Repeats.ne_null (h : Repeats r v) : v ≠ .null := by
  cases h <;> nofun

/-- **A repeated member is refused**, in every record of the document. -/
theorem Repeats.read_eq_none (h : Repeats r v) : r.read v = none := by
  induction h with
  | here hk hc =>
    rw [Option.eq_none_iff_forall_ne_some]
    intro a ha
    obtain ⟨keys, fs, hk, hf⟩ := exists_fields_of_read ha hk
    exact absurd ((fields_eq_none_of_repeated hk hc).symm.trans hf) nofun
  | member hm hp hr ih =>
    rw [Option.eq_none_iff_forall_ne_some]
    intro a ha
    obtain hn | ⟨b, hb⟩ := isRead_of_read ha hp hm
    · exact hr.ne_null hn
    · exact absurd (ih.symm.trans hb) nofun
  | item hm hp hw _ ih =>
    rw [Option.eq_none_iff_forall_ne_some]
    intro a ha
    obtain ⟨b, hb⟩ := isRead_of_read ha hp hm _ rfl _ hw
    exact absurd (ih.symm.trans hb) nofun

/-! ## Texts -/

/-- **Snapshots are read from every spelling.** Take the document of a snapshot, edit its records in
any way and any number of times, and spell the outcome with any blanks: reading the text gives the
snapshot. Every outcome can be spelled. But a text in which a record has a known key twice is not
read. -/
theorem ofText?_of_respelled (s : Snapshot) :
    Spells s.pretty s.toJson ∧
    (∀ v, ReflTransGen (Edit .snapshot) s.toJson v →
      Spells v.pretty v ∧ ∀ text, Spells text v → ofText? text = some s) ∧
    ∀ v, Repeats .snapshot v → ∀ text, Spells text v → ofText? text = none := by
  refine ⟨spells_pretty (isPlain_toJson s), fun v hv => ⟨?_, fun text ht => ?_⟩,
    fun v hv text ht => ?_⟩
  · exact spells_pretty (isPlain_of_edits hv (isPlain_toJson s))
  · rw [ofText?, Json.ofText?_of_spells ht, Option.bind_some]
    exact kept_of_edits hv s (ofJson?_toJson s)
  · rw [ofText?, Json.ofText?_of_spells ht, Option.bind_some]
    exact hv.read_eq_none

/-- A snapshot of one type: rows of itself. -/
def rowSnapshot : Snapshot :=
  ⟨⟨#[{ name := "Row", space := none, fullName := some "Row", shape := .array ⟨0⟩ 1,
        enclosing := none, interfaces := [], fields := [], properties := [], methods := [] }],
    #[]⟩, []⟩

/-- The type of `rowSnapshot`, with its shape as given. -/
def rowDocument (shape : Json) : Json :=
  ofMembers ([("name", ofString "Row"), ("namespace", .null), ("full_name", ofString "Row")] ++
    ("shape", shape) :: [("declaring_type", .null), ("interfaces", .list []),
      ("fields", .list []), ("properties", .list []), ("methods", .list [])])

/-- `rowSnapshot` by hand: the kind of the shape comes last, empty lists are left out, and there is
a remark. -/
def rowsByHand : Json :=
  ofMembers [("metadata", ofMembers [("types", .list [rowDocument (ofMembers
    [("element", ofNat 0), ("rank", ofNat 1), ("kind", ofString "array")])])]),
    ("remark", ofString "checked")]

/-- A document with a type that has two names. -/
def rowsTwice : Json :=
  ofMembers [("metadata", ofMembers [("types", .list
    [ofMembers [("name", ofString "Row"), ("name", ofString "Row")]])])]

theorem edits_rowsByHand : ReflTransGen (Edit .snapshot) rowSnapshot.toJson rowsByHand := by
  let kind := [("kind", ofString "array")]
  let rest := [("element", ofNat 0), ("rank", ofNat 1)]
  let rows (shape : List (String × Json)) := [("types", Json.list [rowDocument (ofMembers shape)])]
  have frames : Edit .snapshot
      (ofMembers ([("metadata", ofMembers (rows (kind ++ rest) ++ ("routines", .list []) :: []))] ++
        ("frames", .list []) :: []))
      (ofMembers ([] ++ ("metadata", ofMembers (rows (kind ++ rest) ++ ("routines", .list []) ::
        [])) :: [])) := .leaveOut rfl
  have routines : Edit .catalog
      (ofMembers (rows (kind ++ rest) ++ ("routines", .list []) :: []))
      (ofMembers (rows (kind ++ rest) ++ [])) := .leaveOut rfl
  have shape : Edit .type (rowDocument (ofMembers (kind ++ rest)))
      (rowDocument (ofMembers (rest ++ kind))) :=
    .member rfl (.reorder List.perm_append_comm)
  have types : Edit .catalog
      (ofMembers ([] ++ ("types", .list ([] ++ rowDocument (ofMembers (kind ++ rest)) :: [])) :: []))
      (ofMembers ([] ++ ("types", .list ([] ++ rowDocument (ofMembers (rest ++ kind)) :: [])) ::
        [])) := .item rfl shape
  have remark : Edit .snapshot
      (ofMembers ([("metadata", ofMembers ([] ++ rows (rest ++ kind)))] ++ [])) rowsByHand :=
    .add (by decide) (.text "checked")
  exact .head frames (.head (.member rfl routines) (.head (.member rfl types) (.single remark)))

theorem repeats_rowsTwice : Repeats .snapshot rowsTwice :=
  .member (List.mem_singleton_self _) rfl (.item (List.mem_singleton_self _) rfl
    (List.mem_singleton_self _) (.here (k := "name") (by decide) (by decide)))

theorem ofText?_rowsByHand :
    ofText? rowsByHand.pretty = some rowSnapshot ∧ ofText? rowsTwice.pretty = none := by
  obtain ⟨-, edited, repeated⟩ := ofText?_of_respelled rowSnapshot
  obtain ⟨spelled, read⟩ := edited rowsByHand edits_rowsByHand
  exact ⟨read _ spelled, repeated _ repeats_rowsTwice _ (spells_pretty rfl)⟩

end Snapshot

end ReadableTrace
