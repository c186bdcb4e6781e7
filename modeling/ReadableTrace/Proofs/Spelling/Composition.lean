import ReadableTrace.Proofs.Spelling.References

/-!
# Spelling a type from the spellings of its parts

The spelling of a type is put together from the spellings that the types it is built from have on
their own, for every kind of shape (`ofType_iff_parts`). Spelling a part on its own starts from an
empty path, while the walk gets to it with a path behind it; that this makes no difference, even in
catalogs with cycles, is `outcome_along_singleton_iff`.
-/

namespace ReadableTrace.Spelling

open Log Outcome

/-- How the name of a generic type is spelled: like the type that its definition refers to, or by
the names of the definition. -/
def HeadSpelling (c : Catalog) (lead : String) (d : TypeEntry) (s : String) : Prop :=
  match d.shape with
  | .byRef a => (ofType c lead a).outcome = .ok s
  | _ => NameSpelling lead d s

variable {c : Catalog} {lead s : String} {r a : TypeRef} {t : TypeEntry}

theorem outcome_ofType (hr : c.type? r = some t) :
    (ofType c lead r).outcome = ofEntry c lead t fun a => (along c lead [r] a).outcome :=
  outcome_along List.not_mem_nil hr

theorem definitionOf_eq_ok_iff {d : Option TypeRef} {u : TypeEntry} :
    definitionOf c t d = .ok u ↔ d.elim (some t) c.type? = some u := by
  cases d with
  | none => simp [definitionOf]
  | some d => exact definitionOf_some_eq_ok_iff

theorem ofHead_along_eq_ok_iff {d : Option TypeRef} {args : List TypeRef} {u : TypeEntry}
    (hr : c.type? r = some t) (hs : t.shape = .generic d args) (hd : definitionOf c t d = .ok u) :
    ofHead lead u (fun a => (along c lead [r] a).outcome) = .ok s ↔ HeadSpelling c lead u s := by
  by_cases hu : ∃ a, u.shape = .byRef a
  · obtain ⟨a, hu⟩ := hu
    rw [ofHead_of_byRef hu, HeadSpelling, hu]
    exact outcome_along_singleton_iff (.of_definition hr hs hd hu)
  · have hu := not_exists.1 hu
    rw [ofHead_of_ne_byRef hu, outcome_ofNames_eq_ok_iff, HeadSpelling]
    split
    · rename_i a ha
      exact absurd ha (hu a)
    · rfl

theorem ofType_iff_of_array {n : UInt32} (hr : c.type? r = some t) (hs : t.shape = .array a n) :
    (ofType c lead r).outcome = .ok s ↔
      ∃ s', (ofType c lead a).outcome = .ok s' ∧ s' ++ Catalog.brackets n = s := by
  simp only [outcome_ofType hr, ofEntry, hs, map_eq_ok_iff,
    outcome_along_singleton_iff (.element hr hs)]

theorem ofType_iff_of_nullable (hr : c.type? r = some t) (hs : t.shape = .nullable a) :
    (ofType c lead r).outcome = .ok s ↔
      ∃ s', (ofType c lead a).outcome = .ok s' ∧ s' ++ "?" = s := by
  simp only [outcome_ofType hr, ofEntry, hs, map_eq_ok_iff,
    outcome_along_singleton_iff (.underlying hr hs)]

theorem ofType_iff_of_byRef (hr : c.type? r = some t) (hs : t.shape = .byRef a) :
    (ofType c lead r).outcome = .ok s ↔ (ofType c lead a).outcome = .ok s := by
  simp only [outcome_ofType hr, ofEntry, hs, outcome_along_singleton_iff (.referent hr hs)]

theorem ofType_iff_of_plain (hr : c.type? r = some t) (hs : t.shape = .plain) :
    (ofType c lead r).outcome = .ok s ↔ NameSpelling lead t s := by
  simp only [outcome_ofType hr, ofEntry, hs, outcome_ofNames_eq_ok_iff]

theorem ofType_iff_of_generic {d : Option TypeRef} {args : List TypeRef} (hr : c.type? r = some t)
    (hs : t.shape = .generic d args) :
    (ofType c lead r).outcome = .ok s ↔
      ∃ u n ss, definitionOf c t d = .ok u ∧ HeadSpelling c lead u n ∧
        List.Forall₂ (fun a s' => (ofType c lead a).outcome = .ok s') args ss ∧
        n ++ angled ss = s := by
  simp only [outcome_ofType hr, ofEntry, hs, bind_eq_ok_iff, mapM_eq_ok_iff, pure_eq_ok_iff]
  have parts (ss : List String) :
      List.Forall₂ (fun a s' => (along c lead [r] a).outcome = .ok s') args ss ↔
        List.Forall₂ (fun a s' => (ofType c lead a).outcome = .ok s') args ss :=
    forall₂_congr_of_mem fun a ha _ => outcome_along_singleton_iff (.argument hr hs ha)
  constructor
  · rintro ⟨u, hd, n, hn, ss, hss, rfl⟩
    exact ⟨u, n, ss, hd, (ofHead_along_eq_ok_iff hr hs hd).1 hn, (parts ss).1 hss, rfl⟩
  · rintro ⟨u, n, ss, hd, hn, hss, rfl⟩
    exact ⟨u, hd, n, (ofHead_along_eq_ok_iff hr hs hd).2 hn, ss, (parts ss).2 hss, rfl⟩

/-- **Spelling is compositional.** A known type is spelled if and only if the types it is built from
are spelled on their own, and its spelling is put together from theirs as its shape says. -/
theorem ofType_iff_parts {c : Catalog} {r : TypeRef} {t : TypeEntry} (hr : c.type? r = some t)
    (lead s : String) :
    (∀ a n, t.shape = .array a n →
      ((ofType c lead r).outcome = .ok s ↔ ∃ s', (ofType c lead a).outcome = .ok s' ∧
        s = s' ++ "[" ++ String.ofList (List.replicate (max n.toNat 1 - 1) ',') ++ "]")) ∧
    (∀ a, t.shape = .nullable a →
      ((ofType c lead r).outcome = .ok s ↔ ∃ s', (ofType c lead a).outcome = .ok s' ∧
        s = s' ++ "?")) ∧
    (∀ a, t.shape = .byRef a →
      ((ofType c lead r).outcome = .ok s ↔ (ofType c lead a).outcome = .ok s)) ∧
    (∀ d args, t.shape = .generic d args →
      ((ofType c lead r).outcome = .ok s ↔ ∃ u, d.elim (some t) c.type? = some u ∧
        ∃ n, HeadSpelling c lead u n ∧
        ∃ ss, List.Forall₂ (fun a s' => (ofType c lead a).outcome = .ok s') args ss ∧
          s = n ++ "<" ++ ", ".intercalate ss ++ ">")) ∧
    (t.shape = .plain → ((ofType c lead r).outcome = .ok s ↔ NameSpelling lead t s)) := by
  refine ⟨fun a n hs => ?_, fun a hs => ?_, fun a hs => ?_, fun d args hs => ?_, fun hs => ?_⟩
  · have commas : n.toNat - 1 = max n.toNat 1 - 1 := by omega
    simp only [ofType_iff_of_array hr hs, Catalog.brackets, ← String.append_assoc, commas,
      eq_comm (a := s)]
  · simp only [ofType_iff_of_nullable hr hs, eq_comm (a := s)]
  · exact ofType_iff_of_byRef hr hs
  · rw [ofType_iff_of_generic hr hs]
    simp only [definitionOf_eq_ok_iff, angled, ← String.append_assoc, eq_comm (a := s)]
    constructor
    · rintro ⟨u, n, ss, hd, hn, hss, rfl⟩
      exact ⟨u, hd, n, hn, ss, hss, rfl⟩
    · rintro ⟨u, hd, n, hn, ss, hss, rfl⟩
      exact ⟨u, n, ss, hd, hn, hss, rfl⟩
  · exact ofType_iff_of_plain hr hs

/-- A generic type with the second and the first type of a catalog as its arguments. -/
def pairType : TypeEntry :=
  { TypeEntry.ofName (some "App") "Pair`2" with shape := .generic none [⟨1⟩, ⟨0⟩] }

/-- A catalog in which a type is reached in two ways: numbers, nullable numbers, and pairs of
both. -/
def pairCatalog : Catalog where
  types := #[.ofName (some "System") "Int32",
    { TypeEntry.ofName (some "System") "Nullable`1" with shape := .nullable ⟨0⟩ }, pairType]
  routines := #[]

theorem ofType_pairCatalog :
    pairCatalog.type? ⟨2⟩ = some pairType ∧
      (ofType pairCatalog "System." ⟨2⟩).outcome = .ok "App.Pair<int?, int>" := by
  have number : (ofType pairCatalog "System." ⟨0⟩).outcome = .ok "int" :=
    ((ofType_iff_parts (t := .ofName (some "System") "Int32") rfl _ _).2.2.2.2 rfl).2
      (.keyword rfl (by decide))
  have nullable : (ofType pairCatalog "System." ⟨1⟩).outcome = .ok "int?" :=
    ((ofType_iff_parts rfl _ _).2.1 ⟨0⟩ rfl).2 ⟨"int", number, rfl⟩
  have taken : Name.decode "App.Pair`2" = .ok ⟨"App.Pair", none⟩ := by decide
  have head : HeadSpelling pairCatalog "System." pairType "App.Pair" :=
    .decoded (show decodable? "System." pairType = some "App.Pair`2" by decide) taken
  exact ⟨rfl, ((ofType_iff_parts rfl _ _).2.2.2.1 none [⟨1⟩, ⟨0⟩] rfl).2
    ⟨pairType, rfl, "App.Pair", head, ["int?", "int"], .cons nullable (.cons number .nil),
      by decide⟩⟩

end ReadableTrace.Spelling
