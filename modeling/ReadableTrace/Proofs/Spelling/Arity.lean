import ReadableTrace.Proofs.Name.Grammar
import ReadableTrace.Proofs.Spelling.Composition

/-!
# Plain types that are spelled alike

A plain type of the user's own is spelled by its full name without the arity suffix. What is taken
off is all from the last grave accent on (`Name.dropArity`), whether or not this is an arity suffix,
which has only digits behind the accent and ends the name (`Name.Bare`).

* A name without an accent, and one that ends in an arity suffix, loses this suffix and no more
  (`Name.bare_dropArity`). If two types with such full names are spelled alike, their full names are
  the same up to arity suffixes.
* Of any other name more is taken off, and a type with such a name may be spelled like another: one
  that is nested in a generic type is spelled like the generic type (`Name.dropArity_append`).

`ofType_eq_ofType_iff` says exactly when two types are spelled alike, and when their full names are
then the same up to arity suffixes.
-/

namespace ReadableTrace

open Log

namespace Name

/-! ## Arity suffixes -/

/-- A name ends in an arity suffix: an accent and only digits behind it. -/
def EndsInArity (name : String) : Prop :=
  ∃ front digits, name.toList = front ++ arityMark :: digits ∧ ∀ d ∈ digits, d.isDigit = true

/-- A name without the arity suffix in which it ends, if it does. -/
inductive Bare (name : String) : String → Prop
  | dropped {base : String} {digits : List Char} :
    name.toList = base.toList ++ arityMark :: digits → (∀ d ∈ digits, d.isDigit = true) →
    Bare name base
  | kept : ¬ EndsInArity name → Bare name name

/-- A name has no accent, or it ends in an arity suffix. -/
def ArityAtEnd (name : String) : Prop := arityMark ∈ name.toList → EndsInArity name

variable {name base base' n n' : String} {front back : List Char}

theorem EndsInArity.mem (h : EndsInArity name) : arityMark ∈ name.toList := by
  obtain ⟨front, digits, hs, -⟩ := h
  rw [hs]
  exact List.mem_append_right front List.mem_cons_self

/-- The last character of a name that ends in an arity suffix is an accent or a digit. -/
theorem EndsInArity.getLast? (h : EndsInArity name) :
    ∃ d, name.toList.getLast? = some d ∧ (d = arityMark ∨ d.isDigit = true) := by
  obtain ⟨front, digits, hs, hd⟩ := h
  refine ⟨(arityMark :: digits).getLast (List.cons_ne_nil _ _), ?_, ?_⟩
  · rw [hs, List.getLast?_append_of_ne_nil _ (List.cons_ne_nil _ _),
      List.getLast?_eq_some_getLast (List.cons_ne_nil _ _)]
  · rcases List.mem_cons.1 (List.getLast_mem (List.cons_ne_nil arityMark digits)) with h | h
    · exact .inl h
    · exact .inr (hd _ h)

theorem arityMark_not_mem_of_digits (h : ∀ d ∈ back, d.isDigit = true) : arityMark ∉ back :=
  fun hm => absurd (h _ hm) (by decide)

theorem dropArity_of_not_mem (h : arityMark ∉ name.toList) : dropArity name = name := by
  rw [dropArity, beforeLast_of_not_mem h, String.ofList_toList]

theorem toList_dropArity (hs : name.toList = front ++ arityMark :: back) (hb : arityMark ∉ back) :
    (dropArity name).toList = front := by
  rw [dropArity, String.toList_ofList, hs, beforeLast_append hb]

/-- What follows a part with an accent, and has none itself, is taken off with the arity suffix. -/
theorem dropArity_append (h : arityMark ∈ n.toList) (hn : arityMark ∉ n'.toList) :
    dropArity (n ++ n') = dropArity n := by
  obtain ⟨front, back, hs, hb⟩ := exists_last_of_mem h
  have whole : (n ++ n').toList = front ++ arityMark :: (back ++ n'.toList) := by
    rw [String.toList_append, hs, List.append_assoc, List.cons_append]
  have clear : arityMark ∉ back ++ n'.toList := by
    rw [List.mem_append, not_or]
    exact ⟨hb, hn⟩
  apply String.toList_injective
  rw [toList_dropArity whole clear, toList_dropArity hs hb]

/-- Nothing is taken off a name only if it has no accent. -/
theorem dropArity_eq_self_iff : dropArity name = name ↔ arityMark ∉ name.toList := by
  refine ⟨fun h hm => ?_, dropArity_of_not_mem⟩
  obtain ⟨front, back, hs, hb⟩ := exists_last_of_mem hm
  have same : front = front ++ arityMark :: back := by
    rw [← hs, ← toList_dropArity hs hb, h]
  exact List.cons_ne_nil _ _ (List.self_eq_append_right.1 same)

theorem Bare.eq_dropArity (h : Bare name base) (ends : EndsInArity name) :
    base = dropArity name := by
  cases h with
  | dropped hs hd =>
    apply String.toList_injective
    rw [toList_dropArity hs (arityMark_not_mem_of_digits hd)]
  | kept none => exact absurd ends none

theorem Bare.eq_self (h : Bare name base) (none : ¬ EndsInArity name) : base = name := by
  cases h with
  | dropped hs hd => exact absurd ⟨_, _, hs, hd⟩ none
  | kept => rfl

/-- Of a name without an accent, and of one that ends in an arity suffix, no more than this suffix
is taken off. -/
theorem bare_dropArity (h : ArityAtEnd name) : Bare name (dropArity name) := by
  by_cases hm : arityMark ∈ name.toList
  · obtain ⟨front, digits, hs, hd⟩ := h hm
    refine .dropped ?_ hd
    rw [toList_dropArity hs (arityMark_not_mem_of_digits hd), hs]
  · rw [dropArity_of_not_mem hm]
    exact .kept fun ends => hm ends.mem

/-- Two names from which the same is left have the same form without arity suffixes only if no more
than these is taken off either, or if they are the same name. -/
theorem exists_bare_iff (h : dropArity n = dropArity n') :
    (∃ base, Bare n base ∧ Bare n' base) ↔ n = n' ∨ ArityAtEnd n ∧ ArityAtEnd n' := by
  constructor
  · rintro ⟨base, hb, hb'⟩
    by_cases ends : EndsInArity n <;> by_cases ends' : EndsInArity n'
    · exact .inr ⟨fun _ => ends, fun _ => ends'⟩
    · -- the second name is what is left of the first, so that nothing was taken off it
      have left : dropArity n' = n' := by rw [← h, ← hb.eq_dropArity ends, hb'.eq_self ends']
      exact .inr ⟨fun _ => ends, fun hm => absurd hm (dropArity_eq_self_iff.1 left)⟩
    · have left : dropArity n = n := by rw [h, ← hb'.eq_dropArity ends', hb.eq_self ends]
      exact .inr ⟨fun hm => absurd hm (dropArity_eq_self_iff.1 left), fun _ => ends'⟩
    · exact .inl ((hb.eq_self ends).symm.trans (hb'.eq_self ends'))
  · rintro (rfl | ⟨ha, ha'⟩)
    · by_cases ends : EndsInArity n
      · exact ⟨_, bare_dropArity fun _ => ends, bare_dropArity fun _ => ends⟩
      · exact ⟨n, .kept ends, .kept ends⟩
    · exact ⟨_, bare_dropArity ha, h ▸ bare_dropArity ha'⟩

end Name

namespace Spelling

/-! ## Types of the user's own -/

/-- A plain type of the user's own: its full name can be read and is not made up by a compiler, has
no keyword, and does not begin like the names of the framework. -/
structure UserType (c : Catalog) (lead : String) (r : TypeRef) (fullName : String) : Prop where
  entry : ∃ t, c.type? r = some t ∧ t.shape = .plain ∧ t.fullName = some fullName
  readable : Text.isBlank fullName = false
  unclosed : '>' ∉ fullName.toList
  noKeyword : keyword? fullName = none
  own : beginsWith lead fullName = false

variable {c : Catalog} {lead : String} {r : TypeRef} {n : String}

/-- Such a type is spelled by its full name. -/
theorem UserType.ofType_eq (h : UserType c lead r n) :
    (ofType c lead r).outcome = .ok (Name.dropArity n) := by
  obtain ⟨t, hr, hs, hn⟩ := h.entry
  have taken : Name.decode n = .ok ⟨Name.dropArity n, none⟩ := by
    rw [Name.decode, h.readable, Name.split_of_not_mem h.unclosed, String.ofList_toList]
    rfl
  have name : decodable? lead t = some n := by
    simp only [decodable?, hn, h.noKeyword, h.own, Option.isSome_none, Bool.or_self,
      Bool.false_eq_true, if_false]
  exact (ofType_iff_of_plain hr hs).2 (.decoded name taken)

/-- **Types of the user's own that are spelled alike have the same name up to arity suffixes**, if
each of their full names has no accent or ends in an arity suffix. Such types are spelled by their
full names without all from the last accent on. Two that are spelled alike and have different names,
one of which has an accent and does not end in an arity suffix, have names that are not the same up
to arity suffixes. -/
theorem ofType_eq_ofType_iff {c : Catalog} {lead : String} {r r' : TypeRef} {n n' : String}
    (h : UserType c lead r n) (h' : UserType c lead r' n') :
    (ofType c lead r).outcome = .ok (Name.dropArity n) ∧
      (ofType c lead r').outcome = .ok (Name.dropArity n') ∧
      ((ofType c lead r).outcome = (ofType c lead r').outcome →
        ((∃ base, Name.Bare n base ∧ Name.Bare n' base) ↔
          n = n' ∨ Name.ArityAtEnd n ∧ Name.ArityAtEnd n')) := by
  refine ⟨h.ofType_eq, h'.ofType_eq, fun alike => Name.exists_bare_iff ?_⟩
  rw [h.ofType_eq, h'.ofType_eq] at alike
  exact Except.ok.inj alike

/-- Two types of one name that take different numbers of arguments. -/
def aritiesCatalog : Catalog where
  types := #[.ofName (some "App") "Pair`2", .ofName (some "App") "Pair`3"]
  routines := #[]

theorem ofType_aritiesCatalog :
    UserType aritiesCatalog "System." ⟨0⟩ "App.Pair`2" ∧
      UserType aritiesCatalog "System." ⟨1⟩ "App.Pair`3" ∧
      (ofType aritiesCatalog "System." ⟨0⟩).outcome =
        (ofType aritiesCatalog "System." ⟨1⟩).outcome ∧
      ∃ base, Name.Bare "App.Pair`2" base ∧ Name.Bare "App.Pair`3" base := by
  have two : UserType aritiesCatalog "System." ⟨0⟩ "App.Pair`2" :=
    ⟨⟨_, rfl, rfl, rfl⟩, by decide, by decide, by decide, by decide⟩
  have three : UserType aritiesCatalog "System." ⟨1⟩ "App.Pair`3" :=
    ⟨⟨_, rfl, rfl, rfl⟩, by decide, by decide, by decide, by decide⟩
  have ends : Name.ArityAtEnd "App.Pair`2" :=
    fun _ => ⟨"App.Pair".toList, ['2'], rfl, List.forall_mem_singleton.2 (by decide)⟩
  have ends' : Name.ArityAtEnd "App.Pair`3" :=
    fun _ => ⟨"App.Pair".toList, ['3'], rfl, List.forall_mem_singleton.2 (by decide)⟩
  obtain ⟨ho, ho', same⟩ := ofType_eq_ofType_iff two three
  have alike : (ofType aritiesCatalog "System." ⟨0⟩).outcome =
      (ofType aritiesCatalog "System." ⟨1⟩).outcome := by
    rw [ho, ho']
    decide
  exact ⟨two, three, alike, (same alike).2 (.inr ⟨ends, ends'⟩)⟩

/-! ## A type in a generic type -/

/-- A type that is nested in a generic type is spelled like the generic type. -/
theorem ofType_nested {r' : TypeRef} {m : String} (h : UserType c lead r n)
    (h' : UserType c lead r' (n ++ "+" ++ m)) (hn : Name.arityMark ∈ n.toList)
    (hm : Name.arityMark ∉ m.toList) :
    (ofType c lead r').outcome = (ofType c lead r).outcome := by
  have clear : Name.arityMark ∉ ("+" ++ m).toList := by
    rw [String.toList_append, List.mem_append, not_or]
    exact ⟨by decide, hm⟩
  rw [h.ofType_eq, h'.ofType_eq, String.append_assoc, Name.dropArity_append hn clear]

/-- A generic type and a type that is nested in it. -/
def boxCatalog : Catalog :=
  ((Catalog.empty.addNamedType (some "App") "Box`1").2.addNestedType ⟨0⟩ "Inner").2

/-- The two types are spelled alike, although their full names are not the same up to arity
suffixes. -/
theorem ofType_boxCatalog :
    UserType boxCatalog "System." ⟨0⟩ "App.Box`1" ∧
      UserType boxCatalog "System." ⟨1⟩ "App.Box`1+Inner" ∧
      (ofType boxCatalog "System." ⟨0⟩).outcome = .ok "App.Box" ∧
      (ofType boxCatalog "System." ⟨1⟩).outcome = .ok "App.Box" ∧
      ¬ ∃ base, Name.Bare "App.Box`1" base ∧ Name.Bare "App.Box`1+Inner" base := by
  have box : UserType boxCatalog "System." ⟨0⟩ "App.Box`1" :=
    ⟨⟨_, rfl, rfl, rfl⟩, by decide, by decide, by decide, by decide⟩
  have inner : UserType boxCatalog "System." ⟨1⟩ "App.Box`1+Inner" :=
    ⟨⟨_, rfl, rfl, rfl⟩, by decide, by decide, by decide, by decide⟩
  have spelled : (ofType boxCatalog "System." ⟨0⟩).outcome = .ok "App.Box" :=
    box.ofType_eq.trans (by decide)
  have alike := ofType_nested (m := "Inner") box inner (by decide) (by decide)
  have endsNot : ¬ Name.EndsInArity "App.Box`1+Inner" := by
    intro ends
    obtain ⟨d, last, hd⟩ := ends.getLast?
    obtain rfl : 'r' = d := Option.some.inj last
    exact absurd hd (by decide)
  refine ⟨box, inner, spelled, alike.trans spelled, ?_⟩
  rintro ⟨base, hb, hb'⟩
  have ends : Name.EndsInArity "App.Box`1" :=
    ⟨"App.Box".toList, ['1'], rfl, List.forall_mem_singleton.2 (by decide)⟩
  have same : "App.Box`1+Inner" = "App.Box" := by
    rw [← hb'.eq_self endsNot, hb.eq_dropArity ends]
    decide
  exact absurd same (by decide)

end Spelling

end ReadableTrace
