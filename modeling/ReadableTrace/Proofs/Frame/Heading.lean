import ReadableTrace.Proofs.Frame.Constructor
import ReadableTrace.Proofs.Frame.LocalFunction

/-!
# How a frame opens

In every style a routine is shown as a member of a type. `Style.Heading` says which type that is,
and what stands in front of it: what the routine returns, the type of the field that holds it, or
the word for a constructor. A blank separates the two. The type is written as it is spelled, or with
a namespace in front (`Style.headed_of_body`), so that no text of a frame is empty
(`Style.ne_empty_of_render`).
-/

namespace ReadableTrace

open Log Outcome

namespace Style

/-- A style shows a routine as a member of a type, with `opening` and a blank in front of it. -/
inductive Heading (v : View) (ref : RoutineRef) (r : Routine) : Style → String → TypeRef → Prop
  /-- The type that has the field in which the lambda is held, behind the type of the field. -/
  | lambda {start owner field opening} : r.declaring = some start →
    (Frame.fieldHolding v.catalog ref start).outcome = .ok (owner, field) →
    (v.type field.type).outcome = .ok opening → Heading v ref r lambda opening owner
  /-- The type around the state machine, behind what the async method returns. -/
  | asyncMethod {machine owner source result} : machineOf r = .ok machine →
    aroundMachine v.catalog machine = .ok owner →
    (Frame.asyncMethodOf v.catalog owner machine).outcome = .ok source →
    (v.returned source).outcome = .ok result →
    Heading v ref r asyncMethod ("async " ++ result) owner
  /-- The type that declares the method, behind what the method returns. -/
  | method {owner result} : r.declaring = some owner → (v.returned r).outcome = .ok result →
    Heading v ref r method result owner
  /-- The type that declares the constructor, behind the word for the kind of constructor. -/
  | constructor {owner} : r.declaring = some owner →
    Heading v ref r constructor (if r.isStatic then "static" else "new") owner

/-- A type that is spelled in the given way is shown as it is spelled, or behind a namespace. -/
inductive ShownAs (spelled : String) : String → Prop
  | bare : ShownAs spelled spelled
  | qualified (space : String) : ShownAs spelled (space ++ "." ++ spelled)

/-- A text begins with what a style writes in front of a type, a blank, and the type. -/
inductive Headed (v : View) (ref : RoutineRef) (r : Routine) (s : Style) (text : String) : Prop
  | intro {opening owner spelled shown} (rest : String) : s.Heading v ref r opening owner →
    (v.type owner).outcome = .ok spelled → ShownAs spelled shown →
    text = opening ++ " " ++ shown ++ rest → Headed v ref r s text

variable {v : View} {f : Frame} {ref : RoutineRef} {r : Routine} {s : Style} {text : String}

theorem shownAs_qualify (space : Option String) (spelled : String) (besides : Option String) :
    ShownAs spelled (qualify space spelled besides) := by
  rw [qualify]
  split
  · split
    · exact .bare
    · exact .qualified _
  · exact .bare

/-! ## The four styles -/

theorem headed_of_lambdaBody (h : (lambdaBody v ref r).outcome = .ok text) :
    Headed v ref r lambda text := by
  simp only [lambdaBody, Logged.outcome_bind, Logged.outcome_lift, bind_eq_ok_iff,
    declaringType_eq_ok_iff] at h
  obtain ⟨start, hd, ⟨owner, field⟩, hf, opening, ho, name, -, entry, -, spelled, hs, h⟩ := h
  have heading : lambda.Heading v ref r opening owner := .lambda hd hf ho
  have shown := shownAs_qualify entry.space spelled (some entry.name)
  split at h
  · obtain rfl := Except.ok.inj h
    exact ⟨"." ++ name.logical, heading, hs, shown, String.append_assoc⟩
  · simp only [Logged.outcome_bind, Logged.outcome_pure, bind_eq_ok_iff] at h
    obtain ⟨arguments, -, h⟩ := h
    obtain rfl := Except.ok.inj h
    refine ⟨"." ++ (name.member ++ (bracketed arguments ++ "()")), heading, hs, shown, ?_⟩
    simp only [String.append_assoc]

theorem headed_of_asyncBody (h : (asyncBody v r).outcome = .ok text) :
    Headed v ref r asyncMethod text := by
  obtain ⟨machine, owner, m, hr, ha, hm⟩ := exists_source_of_asyncBody h
  obtain ⟨p, parts, rfl⟩ := (outcome_asyncBody_eq_ok_iff hr ha hm).1 h
  refine ⟨"." ++ (p.name.logical ++ (bracketed p.arguments ++ ("(" ++ (p.parameters ++ ")")))),
    .asyncMethod hr ha hm parts.result, parts.declaring, .bare, ?_⟩
  simp only [MethodParts.text, String.append_assoc]

theorem headed_of_methodBody (h : (methodBody v ref r).outcome = .ok text) :
    Headed v ref r method text := by
  simp only [methodBody, Logged.outcome_bind, Logged.outcome_lift, bind_eq_ok_iff,
    declaringType_eq_ok_iff] at h
  obtain ⟨result, hr, owner, ho, spelled, hs, parameters, -, indexer, -, h⟩ := h
  have heading : method.Heading v ref r result owner := .method ho hr
  split at h
  · obtain rfl := Except.ok.inj h
    refine ⟨"[" ++ (parameters ++ "]"), heading, hs, .bare, ?_⟩
    simp only [String.append_assoc]
  · simp only [Logged.outcome_bind, Logged.outcome_lift, Logged.outcome_pure, bind_eq_ok_iff] at h
    obtain ⟨name, -, arguments, -, h⟩ := h
    obtain rfl := Except.ok.inj h
    refine ⟨"." ++ (name.member ++ (bracketed arguments ++ ("(" ++ (parameters ++ ")")))), heading,
      hs, .bare, ?_⟩
    simp only [String.append_assoc]

theorem headed_of_constructorBody (h : (constructorBody v r).outcome = .ok text) :
    Headed v ref r constructor text := by
  obtain ⟨owner, t, spelled, arguments, parameters, ho, -, hs, -, -, rfl⟩ :=
    outcome_constructorBody_eq_ok_iff.1 h
  have word : (if r.isStatic then "static " else "new ") =
      (if r.isStatic then "static" else "new") ++ " " := by
    split <;> rfl
  refine ⟨bracketed arguments ++ ("(" ++ (parameters ++ ")")), .constructor ho, hs,
    shownAs_qualify t.space spelled t.space, ?_⟩
  rw [word]
  simp only [String.append_assoc]

/-! ## Every style -/

/-- A routine that is shown is shown as a member of a type, which is spelled. -/
theorem headed_of_body (h : (s.body v ref r).outcome = .ok text) :
    Headed v ref r s text := by
  cases s with
  | lambda => exact headed_of_lambdaBody h
  | asyncMethod => exact headed_of_asyncBody h
  | method => exact headed_of_methodBody h
  | constructor => exact headed_of_constructorBody h

/-- A frame that is shown is not empty: a blank stands in front of the type. -/
theorem ne_empty_of_render (h : (s.render v f).outcome = .ok text) : text ≠ "" := by
  obtain ⟨ref, r, body, -, hb, rfl⟩ := exists_body_of_render h
  obtain ⟨rest, -, -, -, rfl⟩ := headed_of_body hb
  intro he
  simp at he

end Style

end ReadableTrace
