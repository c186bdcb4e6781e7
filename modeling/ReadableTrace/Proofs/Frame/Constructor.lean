import ReadableTrace.Proofs.Frame.AsyncMethod
import ReadableTrace.Proofs.Spelling.Growth

/-!
# The namespace of a constructor

A constructor is shown by the spelling of its type. If the type has a namespace that is not blank,
the namespace and a dot are put in front, unless the spelling begins with the namespace
(`Style.qualify`). Whether the dot follows there is not asked, and so there is one kind of spelling
that goes without its namespace: one that begins with the letters of the namespace and goes on
otherwise. All other constructors are shown behind their namespace and a dot
(`Style.render_constructor_qualified`).
-/

namespace ReadableTrace

open Log Outcome Spelling

namespace Style

variable {v : View} {f : Frame} {r : Routine} {owner : TypeRef} {s space spelled rest : String}

/-! ## The parts of a constructor -/

theorem declaringType_eq_ok_iff : r.declaringType = .ok owner ↔ r.declaring = some owner := by
  rw [Routine.declaringType]
  cases r.declaring with
  | none => simp
  | some o => simp

/-- What the text of a constructor is put together from, in order. -/
theorem outcome_constructorBody_eq_ok_iff :
    (constructorBody v r).outcome = .ok s ↔
      ∃ owner t spelled arguments parameters, r.declaring = some owner ∧
        v.catalog.type? owner = some t ∧ (v.type owner).outcome = .ok spelled ∧
        (v.typeArguments r).outcome = .ok arguments ∧ (v.parameters r).outcome = .ok parameters ∧
        s = (if r.isStatic then "static " else "new ") ++ qualify t.space spelled t.space
          ++ bracketed arguments ++ "(" ++ parameters ++ ")" := by
  simp only [constructorBody, Logged.outcome_bind, Logged.outcome_lift, Logged.outcome_pure,
    bind_eq_ok_iff, declaringType_eq_ok_iff, Catalog.type_eq_ok_iff, Except.ok.injEq]
  constructor
  · rintro ⟨owner, ho, t, ht, spelled, h₁, arguments, h₂, parameters, h₃, rfl⟩
    exact ⟨owner, t, spelled, arguments, parameters, ho, ht, h₁, h₂, h₃, rfl⟩
  · rintro ⟨owner, t, spelled, arguments, parameters, ho, ht, h₁, h₂, h₃, rfl⟩
    exact ⟨owner, ho, t, ht, spelled, h₁, arguments, h₂, parameters, h₃, rfl⟩

/-! ## Behind a namespace -/

/-- What follows the spelling of a type begins with a bracket. -/
theorem not_beginsWith_dot (arguments rest : String) :
    beginsWith "." (bracketed arguments ++ ("(" ++ rest)) = false := by
  rw [bracketed]
  split
  · rw [String.empty_append, beginsWith, String.toList_append]
    rfl
  · rw [String.append_assoc, String.append_assoc, beginsWith, String.toList_append]
    rfl

theorem beginsWith_append_left {a b c : String} :
    beginsWith (a ++ b) (a ++ c) = true ↔ beginsWith b c = true := by
  simp only [beginsWith_iff, String.toList_append, List.prefix_append_right_inj]

/-- Behind a text that does not begin with a dot, a name keeps its first character. -/
theorem beginsWith_dot_append (h : beginsWith "." rest = false) :
    beginsWith "." (spelled ++ rest) = true ↔ beginsWith "." spelled = true := by
  simp only [beginsWith_iff, String.toList_append]
  rw [beginsWith] at h
  cases spelled.toList with
  | nil => simpa [← List.isPrefixOf_iff_prefix] using h
  | cons d l => simp [List.cons_prefix_cons]

theorem beginsWith_qualify (hb : Text.isBlank space = false) (h : beginsWith "." rest = false) :
    beginsWith (space ++ ".") (qualify (some space) spelled (some space) ++ rest) = true ↔
      (beginsWith space spelled = true → beginsWith (space ++ ".") spelled = true) := by
  have shown : Text.nonBlank (some space) = some space := by simp [Text.nonBlank, hb]
  simp only [qualify, shown, Option.any_some]
  split
  · rename_i lead
    obtain ⟨l, hl⟩ := beginsWith_iff.1 lead
    obtain rfl : spelled = space ++ String.ofList l := by
      rw [← String.toList_inj, String.toList_append, String.toList_ofList, hl]
    rw [forall_prop_of_true lead, String.append_assoc, beginsWith_append_left,
      beginsWith_append_left, beginsWith_dot_append h]
  · rename_i lead
    refine iff_of_true ?_ fun h => absurd h lead
    rw [String.append_assoc]
    exact beginsWith_iff.2 ⟨(spelled ++ rest).toList, String.toList_append.symm⟩

/-- **Constructors are shown behind their namespaces.** If a constructor is shown and its type has a
namespace that is not blank, then what follows the first word begins with the namespace and a dot,
except if the type is spelled by a text that begins with the namespace and not with the namespace
and a dot. -/
theorem render_constructor_qualified (h : (constructor.render v f).outcome = .ok s) :
    ∃ ref r owner t spelled shown, f.resolve v.catalog = .ok (ref, r) ∧
      r.declaring = some owner ∧ v.catalog.type? owner = some t ∧
      (v.type owner).outcome = .ok spelled ∧
      s = (if r.isStatic then "static " else "new ") ++ shown ∧
      ∀ space, t.space = some space → Text.isBlank space = false →
        (beginsWith (space ++ ".") shown = true ↔
          (beginsWith space spelled = true → beginsWith (space ++ ".") spelled = true)) := by
  obtain ⟨ref, r, body, hf, hbody, rfl⟩ := exists_body_of_render h
  obtain ⟨owner, t, spelled, arguments, parameters, ho, ht, hspelled, -, -, rfl⟩ :=
    outcome_constructorBody_eq_ok_iff.1 hbody
  refine ⟨ref, r, owner, t, spelled, qualify t.space spelled t.space ++ (bracketed arguments ++
    ("(" ++ (parameters ++ ")" ++ v.suffix f))), hf, ho, ht, hspelled, ?_, fun space hs hb => ?_⟩
  · simp only [String.append_assoc]
  · rw [hs]
    exact beginsWith_qualify hb (not_beginsWith_dot ..)

/-! ## Two framework types -/

/-- A view of one type and its constructor, without places in the source. -/
def soleView (t : TypeEntry) : View := ⟨⟨#[t], #[.constructor ⟨0⟩ false]⟩, "System.", false⟩

theorem render_soleView {t : TypeEntry} (hs : t.shape = .plain)
    (name : NameSpelling "System." t spelled) :
    (constructor.render (soleView t) (.ofRoutine ⟨0⟩)).outcome =
      .ok ("new " ++ qualify t.space spelled t.space ++ "()") := by
  have type : ((soleView t).type ⟨0⟩).outcome = .ok spelled := (ofType_iff_of_plain rfl hs).2 name
  refine (outcome_render_eq_ok_iff rfl).2 ⟨_, outcome_constructorBody_eq_ok_iff.2
    ⟨⟨0⟩, t, spelled, "", "", rfl, rfl, type, rfl, rfl, rfl⟩, ?_⟩
  simp only [String.append_assoc]
  rfl

/-- A type that is spelled by its simple name. -/
def listType : TypeEntry := .ofName (some "System.Collections") "List`1"

theorem render_listType :
    (constructor.render (soleView listType) (.ofRoutine ⟨0⟩)).outcome =
        .ok "new System.Collections.List()" ∧
      ∃ shown, "new System.Collections.List()" = "new " ++ shown ∧
        beginsWith ("System.Collections" ++ ".") shown = true := by
  have name : NameSpelling "System." listType "List" :=
    .framework (t := listType) rfl (keyword?_eq_none_iff.1 (by decide))
      (beginsWith_iff.1 (by decide))
  have text : (constructor.render (soleView listType) (.ofRoutine ⟨0⟩)).outcome =
      .ok "new System.Collections.List()" := (render_soleView rfl name).trans (by decide)
  obtain ⟨ref, r, owner, t, spelled, shown, hf, ho, ht, hs, heq, qualified_iff⟩ :=
    render_constructor_qualified text
  obtain ⟨-, rfl⟩ := Prod.mk.inj (Except.ok.inj hf)
  obtain rfl := Option.some.inj ho
  obtain rfl := Option.some.inj ht
  obtain rfl : "List" = spelled :=
    Except.ok.inj (((ofType_iff_of_plain rfl rfl).2 name).symm.trans hs)
  refine ⟨text, shown, heq, (qualified_iff "System.Collections" rfl (by decide)).2 fun begins => ?_⟩
  exact absurd begins (by decide)

/-- A type that is spelled by its simple name, which begins like its namespace. -/
def exceptionType : TypeEntry := .ofName (some "System") "SystemException"

/-- The constructor is shown without its namespace. -/
theorem render_exceptionType :
    (constructor.render (soleView exceptionType) (.ofRoutine ⟨0⟩)).outcome =
        .ok ("new " ++ "SystemException()") ∧
      exceptionType.space = some "System" ∧ Text.isBlank "System" = false ∧
      beginsWith ("System" ++ ".") "SystemException()" = false := by
  have name : NameSpelling "System." exceptionType "SystemException" :=
    .framework (t := exceptionType) rfl (keyword?_eq_none_iff.1 (by decide))
      (beginsWith_iff.1 (by decide))
  exact ⟨(render_soleView rfl name).trans (by decide), rfl, by decide, by decide⟩

end Style

end ReadableTrace
