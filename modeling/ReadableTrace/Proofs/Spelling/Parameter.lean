import ReadableTrace.Proofs.Spelling.Growth

/-!
# How a parameter is declared

A parameter is spelled by parts, each of which is shown or left out for reasons of its own. The
parts are rules: how the parameter is passed (`PassedAs`), its type (`Segment`), a name
(`Labelled`) and a default value (`Defaulted`). Only the type can fail to have a spelling, and how
it fails depends on the way in which it is spelled (`outcome_typeSegment_eq_error_iff`).

`ofParameter_declared` says that these rules are what `Spelling.ofParameter` computes, and gives
the first failure if there is one.
-/

namespace ReadableTrace.Spelling

open Log Outcome

/-- A label, which is shown behind a blank unless it is missing or blank. -/
inductive Labelled (label : Option String) : String → Prop
  | shown {name} : label = some name → Text.isBlank name = false → Labelled label (" " ++ name)
  | omitted : (∀ name, label = some name → Text.isBlank name = true) → Labelled label ""

/-- How a parameter of a type is passed: one word at most, of which `out` is preferred to `in` and
both to `ref`. -/
inductive PassedAs (p : Parameter) (t : TypeEntry) : String → Prop
  | out : p.isOut = true → PassedAs p t "out "
  | into : p.isOut = false → p.isIn = true → PassedAs p t "in "
  | reference {a} : p.isOut = false → p.isIn = false → t.shape = .byRef a → PassedAs p t "ref "
  | value : p.isOut = false → p.isIn = false → (∀ a, t.shape ≠ .byRef a) → PassedAs p t ""

/-- The default value, of which only a literal is shown. -/
inductive Defaulted (p : Parameter) : String → Prop
  | literal {text} : p.default = some (.literal text) → Defaulted p (" = " ++ text)
  | omitted : (∀ text, p.default ≠ some (.literal text)) → Defaulted p ""

/-- The type is generic and the full name of its definition begins with `family`. -/
def InFamily (c : Catalog) (family : String) (t : TypeEntry) : Prop :=
  ∃ d args u full, t.shape = .generic d args ∧ d.elim (some t) c.type? = some u ∧
    u.fullName = some full ∧ family.toList <+: full.toList

/-- The type of a parameter, which has the entry `t`. -/
inductive Segment (c : Catalog) (lead : String) (p : Parameter) (t : TypeEntry) : String → Prop
  /-- A type that is checked when the program runs is not spelled at all. -/
  | dynamic : p.isDynamic = true → Segment c lead p t "dynamic"
  /-- A tuple has one part for each argument, with the name at the same position behind it. -/
  | tuple {parts} : p.isDynamic = false → InFamily c "System.ValueTuple" t →
    List.Forall₂ (fun (a : TypeRef × Nat) part => ∃ s name, (ofType c lead a.1).outcome = .ok s ∧
      Labelled ((p.elementNames.getD [])[a.2]?.join) name ∧ part = s ++ name)
      t.arguments.zipIdx parts →
    Segment c lead p t ("(" ++ ", ".intercalate parts ++ ")")
  | single {s} : p.isDynamic = false → ¬ InFamily c "System.ValueTuple" t →
    (ofType c lead p.type).outcome = .ok s → Segment c lead p t s

variable {c : Catalog} {lead family s : String} {p : Parameter} {t : TypeEntry} {r : TypeRef}
  {names : List (Option String)} {args : List TypeRef} {e : Fault}

/-! ## Parts that cannot fail -/

theorem nonBlank_eq_none_iff {label : Option String} :
    Text.nonBlank label = none ↔ ∀ name, label = some name → Text.isBlank name = true := by
  simp [Text.nonBlank, Option.filter_eq_none_iff]

theorem nonBlank_eq_some_iff {label : Option String} {name : String} :
    Text.nonBlank label = some name ↔ label = some name ∧ Text.isBlank name = false := by
  simp [Text.nonBlank, Option.filter_eq_some_iff]

theorem labelled_iff {label : Option String} :
    Labelled label s ↔ s = (Text.nonBlank label).elim "" (" " ++ ·) := by
  constructor
  · rintro (⟨hl, h⟩ | h)
    · rw [nonBlank_eq_some_iff.2 ⟨hl, h⟩]
      rfl
    · rw [nonBlank_eq_none_iff.2 h]
      rfl
  · rintro rfl
    cases h : Text.nonBlank label with
    | none => exact .omitted (nonBlank_eq_none_iff.1 h)
    | some name =>
      obtain ⟨hl, hb⟩ := nonBlank_eq_some_iff.1 h
      exact .shown hl hb

theorem labelled_nameSegment_iff : Labelled p.name s ↔ s = nameSegment p := by
  rw [labelled_iff, nameSegment]
  cases Text.nonBlank p.name <;> rfl

theorem passedAs_iff : PassedAs p t s ↔ s = passing p t := by
  rw [passing, TypeEntry.isByRef]
  constructor
  · rintro (h | ⟨h, h'⟩ | ⟨h, h', hs⟩ | ⟨h, h', hs⟩)
    · simp [h]
    · simp [h, h']
    · simp [h, h', hs]
    · cases hs' : t.shape with
      | byRef a => exact absurd hs' (hs a)
      | _ => simp [h, h']
  · rintro rfl
    cases h : p.isOut with
    | true => exact .out h
    | false =>
      cases h' : p.isIn with
      | true => exact .into h h'
      | false =>
        cases hs : t.shape with
        | byRef a => exact .reference h h' hs
        | _ => exact .value h h' (by simp [hs])

theorem defaulted_iff : Defaulted p s ↔ s = defaultSegment p := by
  rw [defaultSegment]
  constructor
  · rintro (h | h)
    · rw [h]
    · split
      · exact absurd ‹_› (h _)
      · rfl
  · rintro rfl
    split
    · exact .literal ‹_›
    · exact .omitted ‹_›

/-! ## The type -/

/-- An element of a tuple is a type with a label behind it. -/
theorem element_eq (names : List (Option String)) (position : Nat) (spelled : String) :
    element names position spelled =
      spelled ++ (Text.nonBlank names[position]?.join).elim "" (" " ++ ·) := by
  rw [element]
  cases Text.nonBlank names[position]?.join with
  | none => simp
  | some name => simp [String.append_assoc]

/-- The elements of a tuple are the spellings of its arguments, each with the label at its
position. -/
theorem outcome_elements (names : List (Option String)) (position : Nat) (args : List TypeRef) :
    (elements c lead names position args).outcome =
      (args.zipIdx position).mapM fun a => element names a.2 <$> (ofType c lead a.1).outcome := by
  induction args generalizing position with
  | nil => rfl
  | cons a args ih =>
    simp only [elements, Logged.outcome_bind, Logged.outcome_pure, List.zipIdx_cons,
      List.mapM_cons, ih, bind_map_left]
    rfl

/-- Whether a known type is in a family can always be told. -/
theorem inFamily_eq_ok_iff (hr : c.type? r = some t) {member : Bool} :
    inFamily c family r none = .ok member ↔ (member = true ↔ InFamily c family t) := by
  have named (d : Option TypeRef) (args : List TypeRef) (hs : t.shape = .generic d args) :
      InFamily c family t ↔
        ((d.elim (some t) c.type?).bind (·.fullName)).any (beginsWith family) = true := by
    simp only [InFamily, hs, Shape.generic.injEq, Option.any_eq_true, Option.bind_eq_some_iff,
      beginsWith_iff]
    constructor
    · rintro ⟨_, _, u, full, ⟨rfl, rfl⟩, hu, hf, hl⟩
      exact ⟨full, ⟨u, hu, hf⟩, hl⟩
    · rintro ⟨full, ⟨u, hu, hf⟩, hl⟩
      exact ⟨d, args, u, full, ⟨rfl, rfl⟩, hu, hf, hl⟩
  have told (b : Bool) : (pure b : Except Fault Bool) = .ok member ↔
      (member = true ↔ b = true) := by
    rw [pure_eq_ok_iff, eq_comm, Bool.eq_iff_iff]
  rw [inFamily, Catalog.type_eq_ok_iff.2 hr, ok_bind]
  cases hs : t.shape with
  | generic d args =>
    simp only [Option.all_none, Bool.and_true]
    rw [named d args hs, told]
    cases d <;> rfl
  | _ => simp [InFamily, hs]

/-- The type of a parameter by the way in which it is spelled. -/
theorem outcome_typeSegment (lead : String) (hr : c.type? p.type = some t) :
    (p.isDynamic = true → (typeSegment c lead p t).outcome = .ok "dynamic") ∧
    (p.isDynamic = false → InFamily c valueTupleLead t → (typeSegment c lead p t).outcome =
      (fun parts => "(" ++ ", ".intercalate parts ++ ")") <$> t.arguments.zipIdx.mapM fun a =>
        element (p.elementNames.getD []) a.2 <$> (ofType c lead a.1).outcome) ∧
    (p.isDynamic = false → ¬ InFamily c valueTupleLead t →
      (typeSegment c lead p t).outcome = (ofType c lead p.type).outcome) := by
  refine ⟨fun hd => ?_, fun hd hf => ?_, fun hd hf => ?_⟩
  · simp [typeSegment, hd]
  · have member : inFamily c valueTupleLead p.type none = .ok true :=
      (inFamily_eq_ok_iff hr).2 (iff_of_true rfl hf)
    simp only [typeSegment, hd, Bool.false_eq_true, if_false, Logged.outcome_bind,
      Logged.outcome_lift, member, ok_bind, if_true, outcome_elements, Logged.outcome_pure]
    rfl
  · have other : inFamily c valueTupleLead p.type none = .ok false :=
      (inFamily_eq_ok_iff hr).2 (iff_of_false Bool.false_ne_true hf)
    simp only [typeSegment, hd, Bool.false_eq_true, if_false, Logged.outcome_bind,
      Logged.outcome_lift, other, ok_bind]

theorem typeSegment_eq_ok_iff (hr : c.type? p.type = some t) :
    (typeSegment c lead p t).outcome = .ok s ↔ Segment c lead p t s := by
  obtain ⟨dynamic, tuple, single⟩ := outcome_typeSegment lead hr
  have part (a : TypeRef × Nat) (part : String) :
      element (p.elementNames.getD []) a.2 <$> (ofType c lead a.1).outcome = .ok part ↔
        ∃ s name, (ofType c lead a.1).outcome = .ok s ∧
          Labelled ((p.elementNames.getD [])[a.2]?.join) name ∧ part = s ++ name := by
    simp only [map_eq_ok_iff, labelled_iff, exists_eq_left, element_eq, exists_and_left,
      eq_comm (b := part)]
  cases hd : p.isDynamic with
  | true =>
    rw [dynamic hd, Except.ok.injEq]
    constructor
    · rintro rfl
      exact .dynamic hd
    · rintro (_ | ⟨hn, -⟩ | ⟨hn, -⟩)
      · rfl
      · cases hd.symm.trans hn
      · cases hd.symm.trans hn
  | false =>
    by_cases hf : InFamily c valueTupleLead t
    · simp only [tuple hd hf, map_eq_ok_iff, mapM_eq_ok_iff, part]
      constructor
      · rintro ⟨parts, hp, rfl⟩
        exact .tuple hd hf hp
      · rintro (hn | ⟨-, -, hp⟩ | ⟨-, hn, -⟩)
        · cases hd.symm.trans hn
        · exact ⟨_, hp, rfl⟩
        · exact absurd hf hn
    · rw [single hd hf]
      constructor
      · exact .single hd hf
      · rintro (hn | ⟨-, hn, -⟩ | ⟨-, -, hs⟩)
        · cases hd.symm.trans hn
        · exact absurd hn hf
        · exact hs

/-- The type of a parameter fails with the first failure among the types that it is spelled by. -/
theorem typeSegment_eq_error_iff (hr : c.type? p.type = some t) :
    (typeSegment c lead p t).outcome = .error e ↔ p.isDynamic = false ∧
      (InFamily c "System.ValueTuple" t ∧ (∃ front a back, t.arguments = front ++ a :: back ∧
          (∀ b ∈ front, ∃ s, (ofType c lead b).outcome = .ok s) ∧
          (ofType c lead a).outcome = .error e) ∨
        ¬ InFamily c "System.ValueTuple" t ∧ (ofType c lead p.type).outcome = .error e) := by
  obtain ⟨dynamic, tuple, single⟩ := outcome_typeSegment lead hr
  cases hd : p.isDynamic with
  | true => simp [dynamic hd]
  | false =>
    by_cases hf : InFamily c "System.ValueTuple" t
    · rw [tuple hd hf, map_eq_error_iff,
        mapM_zipIdx_eq_error_iff fun a => (ofType c lead a).outcome, mapM_eq_error_iff]
      simp [hf]
    · simp [single hd hf, hf]

/-! ## The whole parameter -/

theorem outcome_ofParameter (hr : c.type? p.type = some t) :
    (ofParameter c lead p).outcome =
      (fun segment => (if p.isVariadic then "params " else "") ++ passing p t ++ segment ++
        nameSegment p ++ defaultSegment p) <$> (typeSegment c lead p t).outcome := by
  simp only [ofParameter, Logged.outcome_bind, Logged.outcome_lift, Catalog.type_eq_ok_iff.2 hr,
    ok_bind, Logged.outcome_pure]
  rfl

theorem outcome_ofParameter_of_unknown (hr : c.type? p.type = none) :
    (ofParameter c lead p).outcome = .error (.unknownType p.type) := by
  rw [ofParameter, Logged.outcome_bind, Logged.outcome_lift, Catalog.type, hr]
  rfl

/-- **A parameter is spelled as it is declared.** Its spelling consists of the word for a variadic
one, at most one word for how it is passed, the type, the name and the default value, each as its
rule says. There is one unless the catalog does not have the type, or the type has to be spelled and
cannot be, in which case the first of the types that it is spelled by is to blame. -/
theorem ofParameter_declared (c : Catalog) (lead : String) (p : Parameter) :
    (∀ s, (ofParameter c lead p).outcome = .ok s ↔
      ∃ t passed segment name value, c.type? p.type = some t ∧ PassedAs p t passed ∧
        Segment c lead p t segment ∧ Labelled p.name name ∧ Defaulted p value ∧
        s = (if p.isVariadic then "params " else "") ++ passed ++ segment ++ name ++ value) ∧
    ∀ e, (ofParameter c lead p).outcome = .error e ↔
      c.type? p.type = none ∧ e = .unknownType p.type ∨
      ∃ t, c.type? p.type = some t ∧ p.isDynamic = false ∧
        (InFamily c "System.ValueTuple" t ∧ (∃ front a back, t.arguments = front ++ a :: back ∧
            (∀ b ∈ front, ∃ s, (ofType c lead b).outcome = .ok s) ∧
            (ofType c lead a).outcome = .error e) ∨
          ¬ InFamily c "System.ValueTuple" t ∧ (ofType c lead p.type).outcome = .error e) := by
  cases hr : c.type? p.type with
  | none =>
    rw [outcome_ofParameter_of_unknown hr]
    refine ⟨fun s => ?_, fun e => ?_⟩
    · simp
    · simp [eq_comm (a := e)]
  | some t =>
    rw [outcome_ofParameter hr]
    simp only [map_eq_ok_iff, typeSegment_eq_ok_iff hr, map_eq_error_iff,
      typeSegment_eq_error_iff hr, passedAs_iff, labelled_nameSegment_iff, defaulted_iff]
    constructor
    · intro s
      constructor
      · rintro ⟨segment, hs, rfl⟩
        exact ⟨t, _, segment, _, _, rfl, rfl, hs, rfl, rfl, rfl⟩
      · rintro ⟨_, _, segment, _, _, ⟨⟩, rfl, hs, rfl, rfl, rfl⟩
        exact ⟨segment, hs, rfl⟩
    · intro e
      simp only [reduceCtorEq, false_and, false_or, Option.some.injEq, exists_eq_left']

/-- A catalog with numbers and tuples of three of them. -/
def tripleCatalog : Catalog where
  types := #[.ofName (some "System") "Int32",
    { TypeEntry.ofName (some "System") "ValueTuple`3" with
      shape := .generic none [⟨0⟩, ⟨0⟩, ⟨0⟩] }]
  routines := #[]

/-- A tuple that is only read, with two names for its elements, of which one is blank. -/
def tripleParameter : Parameter :=
  { Parameter.returning ⟨1⟩ with
    name := some "t", isIn := true, elementNames := some [some "x", some "  "] }

theorem ofParameter_tripleCatalog :
    (ofParameter tripleCatalog "System." tripleParameter).outcome =
      .ok "in (int x, int, int) t" := by
  have number : (ofType tripleCatalog "System." ⟨0⟩).outcome = .ok "int" :=
    (ofType_iff_of_plain (t := .ofName (some "System") "Int32") rfl rfl).2
      (.keyword rfl (by decide))
  obtain ⟨declared, -⟩ := ofParameter_declared tripleCatalog "System." tripleParameter
  have family : InFamily tripleCatalog "System.ValueTuple" (tripleCatalog.types[1]) :=
    ⟨none, _, _, "System.ValueTuple`3", rfl, rfl, rfl, by decide⟩
  have bare {label : Option String} (h : Text.nonBlank label = none) : Labelled label "" :=
    .omitted (nonBlank_eq_none_iff.1 h)
  refine (declared _).2 ⟨_, "in ", "(int x, int, int)", " t", "", rfl, .into rfl rfl, ?_,
    .shown rfl (by decide), .omitted nofun, by decide⟩
  exact @Segment.tuple _ _ _ _ ["int x", "int", "int"] rfl family <|
    .cons ⟨"int", " x", number, .shown rfl (by decide), by decide⟩ <|
    .cons ⟨"int", "", number, bare (by decide), by decide⟩ <|
    .cons ⟨"int", "", number, bare (by decide), by decide⟩ .nil

end ReadableTrace.Spelling
