import ReadableTrace.Proofs.Frame.Constructor
import ReadableTrace.Proofs.Frame.LocalFunction
import ReadableTrace.Proofs.Spelling.Arity

/-!
# Local functions and closures

Code that a compiler has moved into a routine of its own is named by where it was written and by
what it was called, `<Outer>tag__Inner|ordinal` (`Name.Moved`). The method style shows such a
routine as `Outer()+Inner`, between the parts that every method has: what it returns, its declaring
type, its type arguments and its parameters (`Signature`). There is a text exactly if all of these
are spelled, and neither the tag nor the ordinal leaves a trace in it (`Style.render_moved`).
-/

namespace ReadableTrace

open Log Outcome

/-! ## Names of moved code -/

namespace Name

/-- The name of moved code in parts, each free of what would end it earlier. -/
structure Moved where
  /-- The routine that the code was written in. -/
  outer : String
  /-- Why the code was moved. -/
  tag : String
  /-- What the code was called. -/
  inner : String
  /-- What follows the bar, if there is one. -/
  ordinal : Option String
  outer_unopened : '<' ∉ outer.toList
  outer_unclosed : '>' ∉ outer.toList
  outer_bare : arityMark ∉ outer.toList
  tag_unclosed : '>' ∉ tag.toList
  tag_unmarked : ¬ marker <:+: tag.toList
  tag_ended : tag.toList.getLast? ≠ some '_'
  inner_shown : Text.isBlank inner = false
  inner_unbarred : '|' ∉ inner.toList
  inner_bare : arityMark ∉ inner.toList

/-- A marker only ends in an underscore that is added to a text if the text ends in one. -/
theorem marker_infix_append_iff {s : List Char} :
    marker <:+: s ++ ['_'] ↔ marker <:+: s ∨ s.getLast? = some '_' := by
  induction s with
  | nil => decide
  | cons d s ih =>
    rw [List.cons_append, marker_infix_cons_iff, marker_infix_cons_iff, ih]
    cases s with
    | nil => simp [marker]
    | cons e s =>
      rw [List.getLast?_cons_cons, List.cons_append, List.head?_cons, List.head?_cons, or_assoc]

namespace Moved

variable (n : Moved)

/-- The name. -/
def text : String :=
  "<" ++ n.outer ++ ">" ++ n.tag ++ "__" ++ n.inner ++ n.ordinal.elim "" ("|" ++ ·)

/-- How the code is shown. -/
def member : String := n.outer ++ "()+" ++ n.inner

/-- The name as a made-up name, with nothing around the brackets. -/
def madeUp : MadeUp where
  around := some []
  outer := n.outer.toList
  between := none
  tag := n.tag.toList
  inner := n.inner.toList
  rest := n.ordinal.map (·.toList)
  around_unclosed := by decide
  outer_unopened := n.outer_unopened
  outer_unclosed := n.outer_unclosed
  tag_unclosed := n.tag_unclosed
  unmarked := fun h => (marker_infix_append_iff.1 h).elim n.tag_unmarked n.tag_ended
  inner_unbarred := n.inner_unbarred

theorem toList_text : n.text.toList = n.madeUp.text := by
  have barred : (n.ordinal.elim "" ("|" ++ ·)).toList = barred (n.ordinal.map (·.toList)) := by
    cases n.ordinal with
    | none => rfl
    | some o => exact String.toList_append
  simp only [text, String.toList_append, barred]
  simp [madeUp, MadeUp.text, MadeUp.head, MadeUp.tagged, MadeUp.last, ending, marker]

/-- Such a name is taken apart into the two parts that are shown. -/
theorem decode_text :
    decode n.text = .ok ⟨n.outer, some ⟨n.inner, Kind.ofTag? n.tag.toList⟩⟩ := by
  have closed : '>' ∈ n.madeUp.text := List.mem_append_right _ List.mem_cons_self
  rw [← n.text.ofList_toList, toList_text, decode_ofList_of_mem closed, n.madeUp.split_text]
  simp only [madeUp, String.ofList_toList, dropArity_of_not_mem n.outer_bare,
    dropArity_of_not_mem n.inner_bare]

theorem nested_decode {d : Decoded} (h : decode n.text = .ok d) : d.nested = some n.inner := by
  obtain rfl := Except.ok.inj (n.decode_text.symm.trans h)
  simp [Decoded.nested, Text.nonBlank, n.inner_shown]

theorem member_decode {d : Decoded} (h : decode n.text = .ok d) : d.member = n.member := by
  rw [Decoded.member, n.nested_decode h]
  obtain rfl := Except.ok.inj (n.decode_text.symm.trans h)
  rfl

end Moved

end Name

/-! ## The parts around a name -/

/-- What a method is shown with besides its name. -/
structure Signature where
  /-- What the method returns. -/
  result : String
  /-- The type that declares the method. -/
  declaring : String
  /-- The type arguments of a generic method. -/
  arguments : List String
  parameters : List String

namespace Signature

/-- The signature is that of a method. What the method returns and the type that declares it have to
be there; the rest is read from lists, which may be empty. -/
structure Of (v : View) (m : Routine) (g : Signature) : Prop where
  result : ∃ p, m.returned = some p ∧ (v.parameter p).outcome = .ok g.result
  declaring : ∃ owner, m.declaring = some owner ∧ (v.type owner).outcome = .ok g.declaring
  arguments : List.Forall₂ (fun a s => (v.type a).outcome = .ok s)
    (if m.isGeneric then m.genericArguments else []) g.arguments
  parameters : List.Forall₂ (fun p s => (v.parameter p).outcome = .ok s) m.parameters g.parameters

/-- A method with its signature around its name. -/
def around (g : Signature) (name : String) : String :=
  g.result ++ " " ++ g.declaring ++ "." ++ name
    ++ Style.bracketed (", ".intercalate g.arguments)
    ++ "(" ++ ", ".intercalate g.parameters ++ ")"

variable {v : View} {m : Routine}

theorem exists_of_iff :
    (∃ g, Of v m g) ↔
      (∃ p s, m.returned = some p ∧ (v.parameter p).outcome = .ok s) ∧
      (∃ owner s, m.declaring = some owner ∧ (v.type owner).outcome = .ok s) ∧
      (m.isGeneric = true → ∀ a ∈ m.genericArguments, ∃ s, (v.type a).outcome = .ok s) ∧
      ∀ p ∈ m.parameters, ∃ s, (v.parameter p).outcome = .ok s := by
  have generic : (m.isGeneric = true → ∀ a ∈ m.genericArguments, ∃ s, (v.type a).outcome = .ok s) ↔
      ∃ ss, List.Forall₂ (fun a s => (v.type a).outcome = .ok s)
        (if m.isGeneric then m.genericArguments else []) ss := by
    simp only [← mapM_eq_ok_iff, exists_mapM_ok_iff]
    cases m.isGeneric <;> simp
  rw [generic, ← exists_mapM_ok_iff]
  simp only [mapM_eq_ok_iff]
  constructor
  · rintro ⟨g, ⟨p, hp, hr⟩, ⟨owner, ho, hd⟩, ha, hps⟩
    exact ⟨⟨p, _, hp, hr⟩, ⟨owner, _, ho, hd⟩, ⟨_, ha⟩, ⟨_, hps⟩⟩
  · rintro ⟨⟨p, result, hp, hr⟩, ⟨owner, declaring, ho, hd⟩, ⟨arguments, ha⟩, ⟨parameters, hps⟩⟩
    exact ⟨⟨result, declaring, arguments, parameters⟩, ⟨p, hp, hr⟩, ⟨owner, ho, hd⟩, ha, hps⟩

end Signature

namespace View

variable {v : View} {m : Routine} {s : String}

theorem outcome_returned_eq_ok_iff :
    (v.returned m).outcome = .ok s ↔ ∃ p, m.returned = some p ∧ (v.parameter p).outcome = .ok s := by
  rw [returned]
  cases m.returned <;> simp

theorem outcome_parameters_eq_ok_iff :
    (v.parameters m).outcome = .ok s ↔
      ∃ ss, List.Forall₂ (fun p s => (v.parameter p).outcome = .ok s) m.parameters ss ∧
        s = ", ".intercalate ss := by
  simp only [parameters, Logged.outcome_map, Logged.outcome_traverse, map_eq_ok_iff,
    mapM_eq_ok_iff, eq_comm (b := s)]

theorem outcome_typeArguments_eq_ok_iff :
    (v.typeArguments m).outcome = .ok s ↔
      ∃ ss, List.Forall₂ (fun a s => (v.type a).outcome = .ok s)
        (if m.isGeneric then m.genericArguments else []) ss ∧ s = ", ".intercalate ss := by
  rw [typeArguments]
  split
  · simp only [Logged.outcome_map, Logged.outcome_traverse, map_eq_ok_iff, mapM_eq_ok_iff,
      eq_comm (b := s)]
  · simp only [Logged.outcome_pure, List.forall₂_nil_left_iff, exists_eq_left, Except.ok.injEq,
      eq_comm (b := s)]
    rfl

end View

/-! ## Catalogs with the same types -/

section SameTypes

variable {c c' : Catalog} {lead : String} {path : List TypeRef} {r : TypeRef}

theorem Catalog.type?_of_types (h : c'.types = c.types) : c'.type? = c.type? := by
  funext r
  rw [Catalog.type?, Catalog.type?, h]

theorem Catalog.type_of_types (h : c'.types = c.types) : c'.type = c.type := by
  funext r
  rw [Catalog.type, Catalog.type, Catalog.type?_of_types h]

namespace Spelling

/-- Spelling a type does not look at routines. -/
theorem outcome_along_of_types (h : c'.types = c.types) :
    (along c' lead path r).outcome = (along c lead path r).outcome := by
  have known := Catalog.type?_of_types h
  induction path, r using Catalog.walk_induction (c := c) with
  | onPath path r hp => rw [outcome_along_of_mem hp, outcome_along_of_mem hp]
  | unknown path r hp hr =>
    rw [outcome_along_of_unknown hp hr, outcome_along_of_unknown hp ((congrFun known r).trans hr)]
  | known path r t hp hr ih =>
    have definitions : definitionOf c' = definitionOf c := by
      funext t d
      rw [definitionOf.eq_def, definitionOf.eq_def, Catalog.type_of_types h]
    rw [outcome_along hp hr, outcome_along hp ((congrFun known r).trans hr)]
    simp only [ih, ofEntry, definitions]

theorem outcome_ofType_of_types (h : c'.types = c.types) :
    (ofType c' lead r).outcome = (ofType c lead r).outcome :=
  outcome_along_of_types h

/-- Neither does spelling a parameter. -/
theorem outcome_ofParameter_of_types (h : c'.types = c.types) (p : Parameter) :
    (ofParameter c' lead p).outcome = (ofParameter c lead p).outcome := by
  have parts (names : List (Option String)) (args : List TypeRef) (position : Nat) :
      (elements c' lead names position args).outcome =
        (elements c lead names position args).outcome := by
    induction args generalizing position with
    | nil => rfl
    | cons a args ih =>
      simp only [elements, Logged.outcome_bind, Logged.outcome_pure, outcome_ofType_of_types h, ih]
  have family : inFamily c' valueTupleLead = inFamily c valueTupleLead := by
    funext r arity
    simp only [inFamily, Catalog.type_of_types h, Catalog.type?_of_types h]
  simp only [ofParameter, Logged.outcome_bind, Logged.outcome_lift, Logged.outcome_pure,
    Catalog.type_of_types h]
  refine bind_congr fun t => ?_
  congr 1
  rw [typeSegment, typeSegment]
  split
  · rfl
  · simp only [Logged.outcome_bind, Logged.outcome_lift, family]
    refine bind_congr fun tuple => ?_
    split
    · simp only [Logged.outcome_bind, Logged.outcome_pure, parts]
    · exact outcome_ofType_of_types h

end Spelling

end SameTypes

/-- The second view has the same types, and tells those of the framework in the same way. -/
structure View.SameTypes (v v' : View) : Prop where
  types : v'.catalog.types = v.catalog.types
  frameworkLead : v'.frameworkLead = v.frameworkLead

section

variable {v v' : View} {m : Routine}

theorem View.SameTypes.outcome_type (h : v.SameTypes v') (r : TypeRef) :
    (v'.type r).outcome = (v.type r).outcome := by
  rw [View.type, View.type, h.frameworkLead, Spelling.outcome_ofType_of_types h.types]

theorem View.SameTypes.outcome_parameter (h : v.SameTypes v') (p : Parameter) :
    (v'.parameter p).outcome = (v.parameter p).outcome := by
  rw [View.parameter, View.parameter, h.frameworkLead,
    Spelling.outcome_ofParameter_of_types h.types]

/-- The signature does not depend on the name. -/
theorem Signature.of_iff_of_sameTypes (h : v.SameTypes v') (name : String) {g : Signature} :
    Of v' { m with name := name } g ↔ Of v m g := by
  constructor
  · rintro ⟨hr, hd, ha, hp⟩
    simp only [h.outcome_type, h.outcome_parameter] at hr hd ha hp
    exact ⟨hr, hd, ha, hp⟩
  · rintro ⟨hr, hd, ha, hp⟩
    simp only [← h.outcome_type, ← h.outcome_parameter] at hr hd ha hp
    exact ⟨hr, hd, ha, hp⟩

end


/-! ## The method style -/

namespace Style

variable {v v' : View} {f f' : Frame} {ref ref' : RoutineRef} {m : Routine} {s : String}
  (n : Name.Moved)

/-- What becomes of a routine with a name of moved code. -/
theorem outcome_methodBody_moved (named : m.name = n.text) :
    (methodBody v ref m).outcome = (do
      let result ← (v.returned m).outcome
      let owner ← m.declaringType
      let declaring ← (v.type owner).outcome
      let parameters ← (v.parameters m).outcome
      let arguments ← (v.typeArguments m).outcome
      pure (result ++ " " ++ declaring ++ "." ++ n.member ++ bracketed arguments
        ++ "(" ++ parameters ++ ")")) := by
  obtain ⟨d, hd⟩ : ∃ d, Name.decode m.name = .ok d := ⟨_, named ▸ n.decode_text⟩
  have inner := n.nested_decode (named ▸ hd)
  have indexer : isIndexer v.catalog ref m = .ok false :=
    isIndexer_of_nested hd (by rw [inner]; exact Option.some_ne_none _)
  simp only [methodBody, Logged.outcome_bind, Logged.outcome_lift, Logged.outcome_pure, indexer,
    ok_bind, Bool.false_eq_true, if_false, hd, n.member_decode (named ▸ hd)]
  rfl

theorem outcome_methodBody_moved_eq_ok_iff (named : m.name = n.text) :
    (methodBody v ref m).outcome = .ok s ↔ ∃ g, Signature.Of v m g ∧ s = g.around n.member := by
  simp only [outcome_methodBody_moved n named, bind_eq_ok_iff, View.outcome_returned_eq_ok_iff,
    declaringType_eq_ok_iff, View.outcome_parameters_eq_ok_iff,
    View.outcome_typeArguments_eq_ok_iff]
  constructor
  · rintro ⟨result, hr, owner, ho, declaring, hd, _, ⟨ps, hp, rfl⟩, _, ⟨as, ha, rfl⟩, h⟩
    exact ⟨⟨result, declaring, as, ps⟩, ⟨hr, ⟨owner, ho, hd⟩, ha, hp⟩, (Except.ok.inj h).symm⟩
  · rintro ⟨g, ⟨hr, ⟨owner, ho, hd⟩, ha, hp⟩, rfl⟩
    exact ⟨_, hr, owner, ho, _, hd, _, ⟨_, hp, rfl⟩, _, ⟨_, ha, rfl⟩, rfl⟩

/-- Two names of the same code only make a difference to what is reported as missing. -/
theorem outcome_methodBody_moved_of_sameTypes {n n' : Name.Moved} (member : n'.member = n.member)
    (h : v.SameTypes v') (named : m.name = n.text) (returned : m.returned ≠ none)
    (declaring : m.declaring ≠ none) :
    (methodBody v' ref' { m with name := n'.text }).outcome = (methodBody v ref m).outcome := by
  obtain ⟨p, hp⟩ := Option.ne_none_iff_exists'.1 returned
  obtain ⟨owner, ho⟩ := Option.ne_none_iff_exists'.1 declaring
  rw [outcome_methodBody_moved n' rfl, outcome_methodBody_moved n named]
  simp only [View.returned, hp, Routine.declaringType, ho, View.parameters, View.typeArguments,
    h.outcome_parameter, h.outcome_type, member, Logged.outcome_map, Logged.outcome_traverse]
  cases m.isGeneric <;> simp only [if_true, if_false, Bool.false_eq_true, Logged.outcome_map,
    Logged.outcome_traverse, Logged.outcome_pure, h.outcome_type]

theorem outcome_render_moved_eq_ok_iff (resolved : f.resolve v.catalog = .ok (ref, m))
    (named : m.name = n.text) :
    (method.render v f).outcome = .ok s ↔
      ∃ g, Signature.Of v m g ∧ s = g.around (n.outer ++ "()+" ++ n.inner) ++ v.suffix f := by
  simp only [outcome_render_eq_ok_iff resolved, body, outcome_methodBody_moved_eq_ok_iff n named]
  constructor
  · rintro ⟨_, ⟨g, hg, rfl⟩, rfl⟩
    exact ⟨g, hg, rfl⟩
  · rintro ⟨g, hg, rfl⟩
    exact ⟨_, ⟨g, hg, rfl⟩, rfl⟩

/-- **Local functions and closures are shown behind the routine that they were written in.** A
method with a name of moved code is shown by the method style exactly if what it returns and its
declaring type are there and are spelled, and so are its parameters and, if it is generic, its type
arguments. The text has all of these around `Outer()+Inner`. So whatever the tag and the ordinal
are, and wherever the routine stands among the others, the text is the same; and a failure is the
same as well, unless something is missing, which is reported with the name of the routine. -/
theorem render_moved (resolved : f.resolve v.catalog = .ok (ref, m)) (named : m.name = n.text) :
    ((∃ s, (method.render v f).outcome = .ok s) ↔
      (∃ p s, m.returned = some p ∧ (v.parameter p).outcome = .ok s) ∧
      (∃ owner s, m.declaring = some owner ∧ (v.type owner).outcome = .ok s) ∧
      (m.isGeneric = true → ∀ a ∈ m.genericArguments, ∃ s, (v.type a).outcome = .ok s) ∧
      ∀ p ∈ m.parameters, ∃ s, (v.parameter p).outcome = .ok s) ∧
    (∀ s, (method.render v f).outcome = .ok s ↔
      ∃ g, Signature.Of v m g ∧ s = g.around (n.outer ++ "()+" ++ n.inner) ++ v.suffix f) ∧
    ∀ (n' : Name.Moved) v' f' ref', n'.outer = n.outer → n'.inner = n.inner →
      v.SameTypes v' → v'.suffix f' = v.suffix f →
      f'.resolve v'.catalog = .ok (ref', { m with name := n'.text }) →
      (∀ s, (method.render v' f').outcome = .ok s ↔ (method.render v f).outcome = .ok s) ∧
      (m.returned ≠ none → m.declaring ≠ none →
        (method.render v' f').outcome = (method.render v f).outcome) := by
  have shown (s) := outcome_render_moved_eq_ok_iff (s := s) n resolved named
  refine ⟨?_, shown, fun n' v' f' ref' outer inner same suffix resolved' => ⟨fun s => ?_, ?_⟩⟩
  · simp only [← Signature.exists_of_iff, shown]
    constructor
    · rintro ⟨_, g, hg, -⟩
      exact ⟨g, hg⟩
    · rintro ⟨g, hg⟩
      exact ⟨_, g, hg, rfl⟩
  · simp only [shown, outcome_render_moved_eq_ok_iff n' resolved' rfl, suffix, outer, inner,
      Signature.of_iff_of_sameTypes same]
  · intro returned declaring
    have member : n'.member = n.member := by rw [Name.Moved.member, Name.Moved.member, outer, inner]
    have text : (methodBody v' ref' { m with name := n'.text }).outcome =
        (methodBody v ref m).outcome :=
      outcome_methodBody_moved_of_sameTypes member same named returned declaring
    simp only [render, Logged.outcome_bind, Logged.outcome_lift, Logged.outcome_pure, resolved,
      resolved', ok_bind, body, suffix, text]

/-! ## A local function -/

/-- The name of a local function in the method `Run`. -/
def helperName : Name.Moved where
  outer := "Run"
  tag := "g"
  inner := "Helper"
  ordinal := some "0_0"
  outer_unopened := by decide
  outer_unclosed := by decide
  outer_bare := by decide
  tag_unclosed := by decide
  tag_unmarked := by decide
  tag_ended := by decide
  inner_shown := by decide
  inner_unbarred := by decide
  inner_bare := by decide

/-- The name of the function if it were a closure. -/
def helperName' : Name.Moved :=
  { helperName with
    tag := "b"
    ordinal := none
    tag_unclosed := by decide
    tag_unmarked := by decide
    tag_ended := by decide }

/-- A generic local function, of which one with the argument `int` is called. -/
def helperFunction : Routine :=
  { Routine.method "<Run>g__Helper|0_0" ⟨0⟩ ⟨1⟩ with
    isGeneric := true, genericArguments := [⟨1⟩] }

/-- A type with a routine, and the type of whole numbers. -/
def helperCatalog (m : Routine) : Catalog where
  types := #[.ofName (some "App") "Worker", .ofName (some "System") "Int32"]
  routines := #[m]

/-- A view of a routine without places in the source. -/
def helperView (m : Routine) : View := ⟨helperCatalog m, "System.", false⟩

/-- A local function and the same code as a closure. -/
theorem render_moved_helperFunction :
    (Frame.ofRoutine ⟨0⟩).resolve (helperCatalog helperFunction) = .ok (⟨0⟩, helperFunction) ∧
      helperFunction.name = helperName.text ∧
      (method.render (helperView helperFunction) (.ofRoutine ⟨0⟩)).outcome =
        .ok "int App.Worker.Run()+Helper<int>()" ∧
      (method.render (helperView { helperFunction with name := "<Run>b__Helper" })
        (.ofRoutine ⟨0⟩)).outcome = .ok "int App.Worker.Run()+Helper<int>()" := by
  have resolved : (Frame.ofRoutine ⟨0⟩).resolve (helperView helperFunction).catalog =
      .ok (⟨0⟩, helperFunction) := rfl
  have named : helperFunction.name = helperName.text := by decide
  have int : ((helperView helperFunction).type ⟨1⟩).outcome = .ok "int" :=
    (Spelling.ofType_iff_of_plain (t := .ofName (some "System") "Int32") rfl rfl).2
      (.keyword rfl (by decide))
  have taken : Name.decode "App.Worker" = .ok ⟨"App.Worker", none⟩ := by decide
  have worker : ((helperView helperFunction).type ⟨0⟩).outcome = .ok "App.Worker" :=
    (Spelling.ofType_iff_of_plain (t := .ofName (some "App") "Worker") rfl rfl).2
      (.decoded (by decide) taken)
  have signature : Signature.Of (helperView helperFunction) helperFunction
      ⟨"int", "App.Worker", ["int"], []⟩ :=
    { result := ⟨_, rfl, (View.outcome_parameter_returning
        (t := .ofName (some "System") "Int32") rfl rfl).trans int⟩
      declaring := ⟨_, rfl, worker⟩
      arguments := .cons int .nil
      parameters := .nil }
  obtain ⟨-, shown, alike⟩ := render_moved helperName resolved named
  have text : (method.render (helperView helperFunction) (.ofRoutine ⟨0⟩)).outcome =
      .ok "int App.Worker.Run()+Helper<int>()" := (shown _).2 ⟨_, signature, by decide⟩
  have closure : helperName'.text = "<Run>b__Helper" := by decide
  obtain ⟨same, -⟩ := alike helperName' (helperView { helperFunction with name := "<Run>b__Helper" })
    (.ofRoutine ⟨0⟩) ⟨0⟩ rfl rfl ⟨rfl, rfl⟩ rfl (closure ▸ rfl)
  exact ⟨resolved, named, text, (same _).2 text⟩

end Style

end ReadableTrace
