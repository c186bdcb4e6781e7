import ReadableTrace.Proofs.Spelling.Parameter

/-!
# Parameters that refer to a place

The type of such a parameter is a by-reference type, and what it refers to is spelled in its stead,
behind the word `ref` unless the parameter is marked in another way (`ofParameter_byRef_iff`). So
the parameter is spelled like one of the type that is referred to.

This holds for all types but one family. A tuple is spelled by its elements if it is the type of
the parameter, and whether the type refers to a tuple is not asked, so a reference to a tuple is
spelled like any generic type and the names of the elements are lost
(`ofParameter_alike_iff`).
-/

namespace ReadableTrace.Spelling

open Log Outcome

/-- The spelling of a parameter around that of its type. How the parameter is passed is said by
`word`, unless it is marked in another way. -/
def around (p : Parameter) (word segment : String) : String :=
  (if p.isVariadic then "params " else "") ++
    (if p.isOut then "out " else if p.isIn then "in " else word) ++ segment ++
    nameSegment p ++ defaultSegment p

variable {c : Catalog} {lead s : String} {p : Parameter} {t u : TypeEntry} {r a : TypeRef}

theorem around_injective (p : Parameter) (word : String) : Function.Injective (around p word) := by
  intro x y h
  simpa only [around, String.append_assoc, String.append_right_inj, String.append_left_inj] using h

theorem outcome_ofParameter_around (hr : c.type? r = some t) :
    (ofParameter c lead { p with type := r }).outcome =
      around p (if t.isByRef then "ref " else "") <$>
        (typeSegment c lead { p with type := r } t).outcome :=
  outcome_ofParameter hr

/-! ## A reference and what it refers to -/

theorem not_inFamily_of_byRef {family : String} (hs : u.shape = .byRef a) :
    ¬ InFamily c family u := by
  rintro ⟨d, args, -, -, hg, -⟩
  cases hs.symm.trans hg

/-- A by-reference parameter is spelled by the type that it refers to. -/
theorem ofParameter_byRef_iff (hd : p.isDynamic = false) (hr : c.type? r = some u)
    (hs : u.shape = .byRef a) :
    (ofParameter c lead { p with type := r }).outcome = .ok s ↔
      ∃ spelled, (ofType c lead a).outcome = .ok spelled ∧ s = around p "ref " spelled := by
  have referred : u.isByRef = true := by rw [TypeEntry.isByRef, hs]
  have segment := (outcome_typeSegment (p := { p with type := r }) lead hr).2.2 hd
    (not_inFamily_of_byRef hs)
  rw [outcome_ofParameter_around hr, segment, referred, if_pos rfl, map_eq_ok_iff]
  simp only [ofType_iff_of_byRef hr hs, eq_comm (a := s)]

/-- A parameter of another type than a reference or a tuple is spelled by its type. -/
theorem ofParameter_single_iff (hd : p.isDynamic = false) (ha : c.type? a = some t)
    (hn : t.isByRef = false) (hf : ¬ InFamily c "System.ValueTuple" t) :
    (ofParameter c lead { p with type := a }).outcome = .ok s ↔
      ∃ spelled, (ofType c lead a).outcome = .ok spelled ∧ s = around p "" spelled := by
  have segment := (outcome_typeSegment (p := { p with type := a }) lead ha).2.2 hd hf
  rw [outcome_ofParameter_around ha, segment, hn, map_eq_ok_iff]
  simp only [Bool.false_eq_true, if_false, eq_comm (a := s)]

/-! ## Tuples -/

/-- A tuple is spelled by its elements in parentheses if all of its arguments are spelled, and only
then. -/
theorem ofParameter_tuple (lead : String) (hd : p.isDynamic = false) (ha : c.type? a = some t)
    (hn : t.isByRef = false) (hf : InFamily c "System.ValueTuple" t) :
    ((∃ s, (ofParameter c lead { p with type := a }).outcome = .ok s) ↔
      ∀ b ∈ t.arguments, ∃ s, (ofType c lead b).outcome = .ok s) ∧
    ∀ s, (ofParameter c lead { p with type := a }).outcome = .ok s →
      ∃ inner, s = around p "" ("(" ++ inner ++ ")") := by
  have segment := (outcome_typeSegment (p := { p with type := a }) lead ha).2.1 hd hf
  rw [outcome_ofParameter_around ha, segment, hn, if_neg Bool.false_ne_true,
    ← exists_mapM_zipIdx_ok_iff (fun b => (ofType c lead b).outcome)
      (element (p.elementNames.getD [])) (n := 0)]
  simp only [map_eq_ok_iff]
  constructor
  · constructor
    · rintro ⟨_, _, ⟨parts, hp, -⟩, -⟩
      exact ⟨parts, hp⟩
    · rintro ⟨parts, hp⟩
      exact ⟨_, _, ⟨parts, hp, rfl⟩, rfl⟩
  · rintro _ ⟨_, ⟨parts, -, rfl⟩, rfl⟩
    exact ⟨_, rfl⟩

/-- The type of a tuple is spelled with angle brackets, and only if its arguments are spelled. -/
theorem ofType_tuple (ha : c.type? a = some t) (hf : InFamily c "System.ValueTuple" t)
    (h : (ofType c lead a).outcome = .ok s) :
    (∀ b ∈ t.arguments, ∃ s, (ofType c lead b).outcome = .ok s) ∧ ∃ inner, s = inner ++ ">" := by
  obtain ⟨d, args, -, -, hs, -⟩ := hf
  obtain ⟨u, n, ss, -, -, hss, rfl⟩ := (ofType_iff_of_generic ha hs).1 h
  have arguments : t.arguments = args := by rw [TypeEntry.arguments, hs]
  rw [arguments, ← exists_mapM_ok_iff]
  refine ⟨⟨ss, mapM_eq_ok_iff.2 hss⟩, n ++ ("<" ++ ", ".intercalate ss), ?_⟩
  simp only [angled, String.append_assoc]

theorem append_angle_ne_append_parenthesis (x y : String) : x ++ ">" ≠ y ++ ")" := by
  intro h
  have last := congrArg (fun z : String => z.toList.getLast?) h
  simp at last

/-- **A reference is shown as what it refers to, unless that is a tuple.** A parameter of a
by-reference type is spelled by the type that is referred to, with `ref` in front unless it is
marked in another way. If that type were the type of the parameter, then the spelling would be the
same but for that word, for all types that are referred to, except for tuples that have a spelling:
of these, the elements are not shown. -/
theorem ofParameter_alike_iff (hd : p.isDynamic = false) (hr : c.type? r = some u)
    (hs : u.shape = .byRef a) (ha : c.type? a = some t) (hn : t.isByRef = false) :
    (∀ s, (ofParameter c lead { p with type := r }).outcome = .ok s ↔
      ∃ spelled, (ofType c lead a).outcome = .ok spelled ∧ s = around p "ref " spelled) ∧
    ((∀ segment, (ofParameter c lead { p with type := a }).outcome = .ok (around p "" segment) ↔
        (ofParameter c lead { p with type := r }).outcome = .ok (around p "ref " segment)) ↔
      (InFamily c "System.ValueTuple" t →
        ∀ s, (ofParameter c lead { p with type := a }).outcome ≠ .ok s)) := by
  refine ⟨fun s => ofParameter_byRef_iff hd hr hs, ?_⟩
  have referred (segment : String) :
      (ofParameter c lead { p with type := r }).outcome = .ok (around p "ref " segment) ↔
        (ofType c lead a).outcome = .ok segment := by
    simp only [ofParameter_byRef_iff hd hr hs, (around_injective p _).eq_iff, exists_eq_right']
  simp only [referred]
  by_cases hf : InFamily c "System.ValueTuple" t
  · obtain ⟨shown_iff, parenthesized⟩ := ofParameter_tuple lead hd ha hn hf
    rw [forall_prop_of_true hf]
    constructor
    · intro alike s hp
      obtain ⟨inner, rfl⟩ := parenthesized s hp
      obtain ⟨-, inner', he⟩ := ofType_tuple ha hf ((alike _).1 hp)
      exact append_angle_ne_append_parenthesis _ _ he.symm
    · intro none segment
      refine iff_of_false (none _) fun ht => ?_
      obtain ⟨s, hp⟩ := shown_iff.2 (ofType_tuple ha hf ht).1
      exact none s hp
  · refine iff_of_true (fun segment => ?_) fun h => absurd h hf
    simp only [ofParameter_single_iff hd ha hn hf, (around_injective p _).eq_iff, exists_eq_right']

/-! ## Two references -/

/-- A tuple of a number and a text. -/
def pairEntry : TypeEntry :=
  { TypeEntry.ofName (some "System") "ValueTuple`2" with shape := .generic (some ⟨2⟩) [⟨0⟩, ⟨1⟩] }

/-- A catalog with references to a number and to a tuple. -/
def placeCatalog : Catalog where
  types := #[.ofName (some "System") "Int32", .ofName (some "System") "String",
    { TypeEntry.ofName (some "System") "ValueTuple`2" with shape := .generic none [] }, pairEntry,
    { TypeEntry.ofName (some "System") "ValueTuple`2&" with shape := .byRef ⟨3⟩ },
    { TypeEntry.ofName (some "System") "Int32&" with shape := .byRef ⟨0⟩ }]
  routines := #[]

theorem ofType_number : (ofType placeCatalog "System." ⟨0⟩).outcome = .ok "int" :=
  (ofType_iff_of_plain (t := .ofName (some "System") "Int32") rfl rfl).2 (.keyword rfl (by decide))

/-- A parameter with the names of two elements. -/
def placeParameter : Parameter :=
  { Parameter.returning ⟨0⟩ with name := some "p", elementNames := some [some "a", some "b"] }

theorem ofParameter_placeCatalog :
    placeParameter.isDynamic = false ∧
    (ofParameter placeCatalog "System." placeParameter).outcome = .ok "int p" ∧
    (ofParameter placeCatalog "System." { placeParameter with type := ⟨5⟩ }).outcome =
      .ok "ref int p" := by
  have plain : ¬ InFamily placeCatalog "System.ValueTuple" (.ofName (some "System") "Int32") := by
    rintro ⟨_, _, _, _, hs, -⟩
    cases hs
  obtain ⟨referred, alike_iff⟩ := ofParameter_alike_iff (p := placeParameter) (c := placeCatalog)
    (r := ⟨5⟩) (a := ⟨0⟩) rfl rfl rfl rfl rfl
  have text : (ofParameter placeCatalog "System." { placeParameter with type := ⟨5⟩ }).outcome =
      .ok "ref int p" := (referred _).2 ⟨"int", ofType_number, by decide⟩
  have alike := alike_iff.2 (fun hf => absurd hf plain) "int"
  exact ⟨rfl, alike.2 text, text⟩

/-- The names of the elements are shown, but not behind a reference. -/
theorem ofParameter_pairReference :
    (placeParameter.isDynamic = false ∧ placeParameter.isOut = false ∧
      placeParameter.isIn = false) ∧
    placeCatalog.type? ⟨3⟩ = some pairEntry ∧ pairEntry.isByRef = false ∧
    (∃ u, placeCatalog.type? ⟨4⟩ = some u ∧ u.shape = .byRef ⟨3⟩) ∧
    (ofParameter placeCatalog "System." { placeParameter with type := ⟨3⟩ }).outcome =
      .ok "(int a, string b) p" ∧
    (ofParameter placeCatalog "System." { placeParameter with type := ⟨4⟩ }).outcome =
      .ok "ref ValueTuple<int, string> p" ∧
    "ref ValueTuple<int, string> p" ≠ "ref " ++ "(int a, string b) p" := by
  have text : (ofType placeCatalog "System." ⟨1⟩).outcome = .ok "string" :=
    (ofType_iff_of_plain (t := .ofName (some "System") "String") rfl rfl).2
      (.keyword rfl (by decide))
  have family : InFamily placeCatalog "System.ValueTuple" pairEntry :=
    ⟨some ⟨2⟩, _, placeCatalog.types[2], "System.ValueTuple`2", rfl, rfl, rfl, by decide⟩
  have elements : Segment placeCatalog "System." { placeParameter with type := ⟨3⟩ } pairEntry
      "(int a, string b)" :=
    @Segment.tuple _ _ _ _ ["int a", "string b"] rfl family <|
      .cons ⟨"int", " a", ofType_number, .shown rfl (by decide), by decide⟩ <|
      .cons ⟨"string", " b", text, .shown rfl (by decide), by decide⟩ .nil
  have head : HeadSpelling placeCatalog "System." placeCatalog.types[2] "ValueTuple" :=
    .framework (show placeCatalog.types[2].fullName = some "System.ValueTuple`2" from rfl)
      (keyword?_eq_none_iff.1 (by decide)) (by decide)
  have pair : (ofType placeCatalog "System." ⟨3⟩).outcome = .ok "ValueTuple<int, string>" :=
    (ofType_iff_of_generic rfl rfl).2 ⟨_, "ValueTuple", ["int", "string"], rfl, head,
      .cons ofType_number (.cons text .nil), by decide⟩
  refine ⟨⟨rfl, rfl, rfl⟩, rfl, rfl, ⟨_, rfl, rfl⟩, ?_, ?_, by decide⟩
  · rw [outcome_ofParameter_around (t := pairEntry) rfl, map_eq_ok_iff]
    exact ⟨_, (typeSegment_eq_ok_iff rfl).2 elements, by decide⟩
  · exact (ofParameter_byRef_iff rfl rfl rfl).2 ⟨_, pair, by decide⟩

end ReadableTrace.Spelling
