import ReadableTrace.Proofs.Name.Grammar
import ReadableTrace.Proofs.Spelling.Arity

/-!
# Types with a blank spelling

Arrays, nullable types and generic types add signs to what they are built from, so only the names of
a plain type may leave a blank spelling. `Hollow` says of which entries they do: of a framework type
whose simple name has nothing in front of its arity suffix, and of a type whose name is read as one
that a compiler made up around nothing, such as the closure class `App.Worker+<>c`.

* A spelling is blank exactly if the type is plain, seen through types of references, and has a
  hollow entry (`isBlank_iff_of_ofType`).
* Closure classes are hollow, and entries whose names are no made-up names and have no arity suffix
  are not (`Hollow.of_closureClass`, `not_hollow_of_ordinary`).
-/

namespace ReadableTrace

open Log Outcome

/-! ## Names -/

namespace Name

variable {raw : String} {d : Decoded}

theorem Decoded.not_isBlank_of_nested {n : String} (h : d.nested = some n) :
    Text.isBlank n = false := by
  rw [Decoded.nested, Text.nonBlank, Option.filter_eq_some_iff] at h
  simpa using h.2

/-- A name that a compiler made up around nothing, without a marker, is read as empty. -/
theorem decode_closureClass {front back : String} (hf : '>' ∉ front.toList)
    (hb : ¬ marker <:+: back.toList) : decode (front ++ "<>" ++ back) = .ok ⟨"", none⟩ := by
  have shape : (front ++ "<>" ++ back).toList = (front.toList ++ ['<']) ++ '>' :: back.toList := by
    simp
  have closed : '>' ∈ (front.toList ++ ['<']) ++ '>' :: back.toList :=
    List.mem_append_right _ List.mem_cons_self
  have unclosed : '>' ∉ front.toList ++ ['<'] := by simpa using hf
  have nothing : afterLast '<' (front.toList ++ ['<']) = [] :=
    afterLast_eq_iff.2 ⟨some front.toList, (List.append_nil _).symm, List.not_mem_nil⟩
  rw [← String.ofList_toList (s := front ++ "<>" ++ back), shape, decode_ofList_of_mem closed,
    split_of_unmarked unclosed hb, nothing]
  rfl

/-- A name that can be read, is not made up by a compiler and has no arity suffix. -/
structure Ordinary (name : String) : Prop where
  readable : Text.isBlank name = false
  unclosed : '>' ∉ name.toList
  bare : arityMark ∉ name.toList

/-- An ordinary name stands for itself. -/
theorem Ordinary.decode_eq (h : Ordinary raw) : decode raw = .ok ⟨raw, none⟩ := by
  rw [decode, h.readable, split_of_not_mem h.unclosed, String.ofList_toList,
    dropArity_of_not_mem h.bare]
  rfl

end Name

namespace Spelling

/-! ## Hollow entries -/

/-- Nothing but white space is left of the names of an entry. -/
inductive Hollow (lead : String) (t : TypeEntry) : Prop
  /-- Of the simple name of a framework type without a keyword. -/
  | framework {full} : t.fullName = some full → (∀ word, (full, word) ∉ keywords) →
    lead.toList <+: full.toList → Text.isBlank (Name.dropArity t.name) = true → Hollow lead t
  /-- Of any other name, which has no inner part either. -/
  | decoded {raw d} : decodable? lead t = some raw → Name.decode raw = .ok d →
    Text.isBlank d.logical = true → d.nested = none → Hollow lead t

/-- Seen through types of references, the type is the plain one with the entry. -/
inductive StandsFor (c : Catalog) : TypeRef → TypeEntry → Prop
  | plain {r t} : c.type? r = some t → t.shape = .plain → StandsFor c r t
  | byRef {r a u t} : c.type? r = some u → u.shape = .byRef a → StandsFor c a t → StandsFor c r t

variable {c : Catalog} {lead s : String} {path : List TypeRef} {r a : TypeRef} {t : TypeEntry}
  {d : Name.Decoded}

theorem isBlank_ofDecoded_iff :
    Text.isBlank (ofDecoded d) = true ↔ Text.isBlank d.logical = true ∧ d.nested = none := by
  rw [ofDecoded]
  cases h : d.nested with
  | none => simp
  | some n => simp [Name.Decoded.not_isBlank_of_nested h]

theorem not_isBlank_of_mem_keywords {full word : String} (h : (full, word) ∈ keywords) :
    Text.isBlank word ≠ true := by
  have all : ∀ p ∈ keywords, Text.isBlank p.2 ≠ true := by decide
  exact all _ h

theorem Hollow.exists_nameSpelling (h : Hollow lead t) :
    ∃ s, NameSpelling lead t s ∧ Text.isBlank s = true := by
  cases h with
  | framework hf hk hl hb => exact ⟨_, .framework hf hk hl, hb⟩
  | decoded hd hr hb hn => exact ⟨_, .decoded hd hr, isBlank_ofDecoded_iff.2 ⟨hb, hn⟩⟩

/-- An entry is spelled by its names as blank text exactly if it is hollow. -/
theorem NameSpelling.isBlank_iff (h : NameSpelling lead t s) :
    Text.isBlank s = true ↔ Hollow lead t := by
  constructor
  · intro hb
    cases h with
    | keyword _ hm => exact absurd hb (not_isBlank_of_mem_keywords hm)
    | framework hf hk hl => exact .framework hf hk hl hb
    | decoded hd hr =>
      obtain ⟨hb, hn⟩ := isBlank_ofDecoded_iff.1 hb
      exact .decoded hd hr hb hn
  · intro hollow
    obtain ⟨s', h', hb⟩ := hollow.exists_nameSpelling
    -- there is only one spelling by names
    obtain rfl : s = s' :=
      Except.ok.inj ((outcome_ofNames_eq_ok_iff.2 h).symm.trans (outcome_ofNames_eq_ok_iff.2 h'))
    exact hb

/-! ## Types -/

theorem StandsFor.eq_of_plain {u : TypeEntry} (h : StandsFor c r u) (hr : c.type? r = some t)
    (hs : t.shape = .plain) : u = t := by
  cases h with
  | plain hr' _ => exact Option.some.inj (hr'.symm.trans hr)
  | byRef hr' hs' _ =>
    obtain rfl := Option.some.inj (hr'.symm.trans hr)
    cases hs'.symm.trans hs

theorem standsFor_iff_of_byRef {u : TypeEntry} (hr : c.type? r = some t) (hs : t.shape = .byRef a) :
    StandsFor c r u ↔ StandsFor c a u := by
  refine ⟨fun h => ?_, .byRef hr hs⟩
  cases h with
  | plain hr' hs' =>
    obtain rfl := Option.some.inj (hr'.symm.trans hr)
    cases hs'.symm.trans hs
  | byRef hr' hs' h =>
    obtain rfl := Option.some.inj (hr'.symm.trans hr)
    obtain rfl := Shape.byRef.inj (hs'.symm.trans hs)
    exact h

/-- A type stands for a plain one only if it is plain or a type of references. -/
theorem StandsFor.shape {u : TypeEntry} (h : StandsFor c r u) (hr : c.type? r = some t) :
    t.shape = .plain ∨ ∃ a, t.shape = .byRef a := by
  cases h with
  | plain hr' hs => exact .inl (Option.some.inj (hr'.symm.trans hr) ▸ hs)
  | byRef hr' hs => exact .inr ⟨_, Option.some.inj (hr'.symm.trans hr) ▸ hs⟩

theorem isBlank_append_brackets (n : UInt32) :
    Text.isBlank (s ++ Catalog.brackets n) = false := by
  have bracket : Text.isBlank "[" = false := by decide
  simp [Catalog.brackets, bracket]

theorem isBlank_append_angled (ss : List String) : Text.isBlank (s ++ angled ss) = false := by
  have bracket : Text.isBlank "<" = false := by decide
  simp [angled, bracket]

/-- A type of another shape has signs in its spelling, and stands for no plain type. -/
theorem isBlank_iff_of_signs (hr : c.type? r = some t) (hs : t.shape ≠ .plain)
    (hb : ∀ a, t.shape ≠ .byRef a) (signs : Text.isBlank s = false) :
    Text.isBlank s = true ↔ ∃ t, StandsFor c r t ∧ Hollow lead t := by
  rw [signs]
  refine ⟨fun h => Bool.noConfusion h, ?_⟩
  rintro ⟨u, hu, -⟩
  rcases hu.shape hr with plain | ⟨a, referring⟩
  · exact absurd plain hs
  · exact absurd referring (hb a)

/-- A spelling along a path is blank exactly if the names of a hollow entry are all that is
spelled. -/
theorem isBlank_iff_of_along (h : (along c lead path r).outcome = .ok s) :
    Text.isBlank s = true ↔ ∃ t, StandsFor c r t ∧ Hollow lead t := by
  induction path, r using Catalog.walk_induction (c := c) generalizing s with
  | onPath path r hp =>
    rw [outcome_along_of_mem hp] at h
    cases h
  | unknown path r hp hr =>
    rw [outcome_along_of_unknown hp hr] at h
    cases h
  | known path r t hp hr ih =>
    rw [outcome_along hp hr, ofEntry] at h
    cases hs : t.shape with
    | plain =>
      rw [hs] at h
      rw [(outcome_ofNames_eq_ok_iff.1 h).isBlank_iff]
      constructor
      · intro hollow
        exact ⟨t, .plain hr hs, hollow⟩
      · rintro ⟨u, hu, hollow⟩
        exact hu.eq_of_plain hr hs ▸ hollow
    | byRef a =>
      rw [hs] at h
      simp only [ih a h, standsFor_iff_of_byRef hr hs]
    | nullable a =>
      rw [hs] at h
      obtain ⟨s', -, rfl⟩ := map_eq_ok_iff.1 h
      have mark : Text.isBlank "?" = false := by decide
      exact isBlank_iff_of_signs hr (by simp [hs]) (by simp [hs]) (by simp [mark])
    | array a n =>
      rw [hs] at h
      obtain ⟨s', -, rfl⟩ := map_eq_ok_iff.1 h
      exact isBlank_iff_of_signs hr (by simp [hs]) (by simp [hs]) (isBlank_append_brackets n)
    | generic d args =>
      rw [hs] at h
      simp only [bind_eq_ok_iff, pure_eq_ok_iff] at h
      obtain ⟨u, -, head, -, ss, -, rfl⟩ := h
      exact isBlank_iff_of_signs hr (by simp [hs]) (by simp [hs]) (isBlank_append_angled ss)

theorem isBlank_iff_of_ofType (h : (ofType c lead r).outcome = .ok s) :
    Text.isBlank s = true ↔ ∃ t, StandsFor c r t ∧ Hollow lead t :=
  isBlank_iff_of_along h

/-! ## Which names are hollow -/

/-- The closure classes of the user's own types are hollow. -/
theorem Hollow.of_closureClass {front back : String}
    (hn : decodable? lead t = some (front ++ "<>" ++ back)) (hf : '>' ∉ front.toList)
    (hb : ¬ Name.marker <:+: back.toList) : Hollow lead t :=
  .decoded hn (Name.decode_closureClass hf hb) (by decide) rfl

/-- An entry is not hollow if all of its names are ordinary. -/
theorem not_hollow_of_ordinary (hn : Name.Ordinary t.name)
    (hf : ∀ full, t.fullName = some full → Name.Ordinary full) : ¬ Hollow lead t := by
  rintro (⟨-, -, -, hb⟩ | @⟨raw, d, hd, hr, hb, -⟩)
  · rw [Name.dropArity_of_not_mem hn.bare, hn.readable] at hb
    cases hb
  · have ordinary : Name.Ordinary raw := by
      rw [decodable?] at hd
      cases hfull : t.fullName with
      | none =>
        rw [hfull] at hd
        exact Option.some.inj hd ▸ hn
      | some full =>
        simp only [hfull, Option.ite_none_left_eq_some, Option.some.injEq] at hd
        exact hd.2 ▸ hf full hfull
    obtain rfl := Except.ok.inj (ordinary.decode_eq.symm.trans hr)
    rw [ordinary.readable] at hb
    cases hb

end Spelling

end ReadableTrace
