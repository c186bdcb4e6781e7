import ReadableTrace.Name
import Mathlib.Data.List.Infix

/-!
# Cutting a text

What the cuts that `Name.split` is made of mean. A cut at the first character of a kind, or at the
first marker, is the only way to take the text apart with nothing of the kind in front
(`cut?_eq_some_iff`, `cutMarker?_eq_some_iff`). `afterLast` is what is left when all of it that ends
in the character is taken off (`afterLast_eq_iff`).
-/

namespace ReadableTrace.Name

variable {c d : Char} {s front back : List Char}

/-! ## At a character -/

theorem cut?_append (h : c ∉ front) : cut? c (front ++ c :: back) = some (front, back) := by
  induction front with
  | nil => exact if_pos rfl
  | cons d front ih =>
    rw [List.mem_cons, not_or] at h
    rw [List.cons_append, cut?, if_neg (Ne.symm h.1), ih h.2]
    rfl

theorem cut?_eq_some_iff : cut? c s = some (front, back) ↔ s = front ++ c :: back ∧ c ∉ front := by
  refine ⟨fun h => ?_, fun ⟨hs, hf⟩ => hs ▸ cut?_append hf⟩
  induction s generalizing front with
  | nil => cases h
  | cons d s ih =>
    rw [cut?] at h
    split at h
    · rename_i hd
      obtain ⟨rfl, rfl⟩ := Prod.mk.inj (Option.some.inj h)
      exact ⟨hd ▸ rfl, List.not_mem_nil⟩
    · rename_i hd
      obtain ⟨⟨f, b⟩, hc, he⟩ := Option.map_eq_some_iff.1 h
      obtain ⟨rfl, rfl⟩ := Prod.mk.inj he
      obtain ⟨rfl, hf⟩ := ih hc
      exact ⟨rfl, List.not_mem_cons_of_ne_of_not_mem (Ne.symm hd) hf⟩

theorem cut?_eq_none_iff : cut? c s = none ↔ c ∉ s := by
  rw [Option.eq_none_iff_forall_ne_some]
  constructor
  · intro h hm
    obtain ⟨front, back, hs, hf⟩ := List.eq_append_cons_of_mem hm
    exact h _ (cut?_eq_some_iff.2 ⟨hs, hf⟩)
  · rintro h ⟨front, back⟩ hc
    exact h ((cut?_eq_some_iff.1 hc).1 ▸ List.mem_append_right _ List.mem_cons_self)

/-- What follows some `c` is part of what follows the first. -/
theorem exists_cut?_of_append (c : Char) (front back : List Char) :
    ∃ f b, cut? c (front ++ c :: back) = some (f, b) ∧ back <:+ b := by
  induction front with
  | nil => exact ⟨[], back, if_pos rfl, List.suffix_rfl⟩
  | cons d front ih =>
    rw [List.cons_append, cut?]
    by_cases hd : d = c
    · refine ⟨[], front ++ c :: back, if_pos hd, ?_⟩
      exact (List.suffix_cons c back).trans (List.suffix_append front _)
    · obtain ⟨f, b, h, hb⟩ := ih
      exact ⟨d :: f, b, by rw [if_neg hd, h]; rfl, hb⟩

/-- A text is what its last `c` ends, if it has one, and what follows that. -/
def ending (c : Char) : Option (List Char) → List Char
  | none => []
  | some a => a ++ [c]

theorem ending_injective : Function.Injective (ending c) := by
  rintro (_ | a) (_ | b) h
  · rfl
  · exact absurd h.symm (List.append_ne_nil_of_right_ne_nil _ (List.cons_ne_nil c []))
  · exact absurd h (List.append_ne_nil_of_right_ne_nil _ (List.cons_ne_nil c []))
  · exact congrArg some (List.append_cancel_right h)

theorem afterLast_eq_iff : afterLast c s = back ↔ ∃ a, s = ending c a ++ back ∧ c ∉ back := by
  rw [afterLast]
  constructor
  · intro h
    cases hs : cut? c s.reverse with
    | none =>
      rw [hs] at h
      subst h
      have hn := cut?_eq_none_iff.1 hs
      rw [List.mem_reverse] at hn
      exact ⟨none, rfl, hn⟩
    | some p =>
      obtain ⟨b, f⟩ := p
      rw [hs] at h
      subst h
      obtain ⟨hs, hb⟩ := cut?_eq_some_iff.1 hs
      refine ⟨some f.reverse, ?_, by rwa [List.mem_reverse]⟩
      rw [← s.reverse_reverse, hs]
      simp [ending]
  · rintro ⟨_ | a, hs, hb⟩
    · obtain rfl : s = back := hs
      rw [cut?_eq_none_iff.2 (by rwa [List.mem_reverse])]
    · have hr : s.reverse = back.reverse ++ c :: a.reverse := by simp [hs, ending]
      rw [hr, cut?_eq_some_iff.2 ⟨rfl, by rwa [List.mem_reverse]⟩]
      exact back.reverse_reverse

theorem exists_afterLast (c : Char) (s : List Char) :
    ∃ a, s = ending c a ++ afterLast c s ∧ c ∉ afterLast c s :=
  afterLast_eq_iff.1 rfl

/-- A text with a `c` in it has a last one. -/
theorem exists_last_of_mem (h : c ∈ s) : ∃ front back, s = front ++ c :: back ∧ c ∉ back := by
  obtain ⟨_ | front, hs, hb⟩ := exists_afterLast c s
  · have whole : s = afterLast c s := hs
    exact absurd h (whole ▸ hb)
  · exact ⟨front, afterLast c s, hs.trans (List.append_assoc ..), hb⟩

theorem beforeLast_of_not_mem (h : c ∉ s) : beforeLast c s = s := by
  rw [beforeLast, cut?_eq_none_iff.2 (by rwa [List.mem_reverse])]

theorem beforeLast_append (h : c ∉ back) : beforeLast c (front ++ c :: back) = front := by
  have hr : (front ++ c :: back).reverse = back.reverse ++ c :: front.reverse := by simp
  rw [beforeLast, hr, cut?_append (by rwa [List.mem_reverse])]
  exact front.reverse_reverse

theorem mem_of_mem_beforeLast (h : d ∈ beforeLast c s) : d ∈ s := by
  rw [beforeLast] at h
  cases hs : cut? c s.reverse with
  | none =>
    rw [hs] at h
    exact h
  | some p =>
    rw [hs, List.mem_reverse] at h
    rw [← List.mem_reverse, (cut?_eq_some_iff.1 hs).1]
    exact List.mem_append_right _ (List.mem_cons_of_mem _ h)

/-- Taking off an arity suffix brings in no character. -/
theorem not_mem_dropArity (h : d ∉ s) : d ∉ (dropArity (String.ofList s)).toList := by
  rw [dropArity, String.toList_ofList, String.toList_ofList]
  exact fun hm => h (mem_of_mem_beforeLast hm)

/-! ## At a marker -/

/-- The marker in front of an inner name. -/
def marker : List Char := ['_', '_']

theorem marker_infix_cons_iff :
    marker <:+: d :: s ↔ (d = '_' ∧ s.head? = some '_') ∨ marker <:+: s := by
  have hp : ['_'] <+: s ↔ s.head? = some '_' := by
    cases s with
    | nil => simp
    | cons e s => simp [List.cons_prefix_cons, eq_comm]
  rw [List.infix_cons_iff, marker, List.cons_prefix_cons, hp, eq_comm (a := '_') (b := d)]

/-- A text that does not begin with a marker is cut behind its first character. -/
theorem cutMarker?_cons (h : ¬ (d = '_' ∧ s.head? = some '_')) :
    cutMarker? (d :: s) = (cutMarker? s).map fun p => (d :: p.1, p.2) := by
  rw [cutMarker?]
  rintro r rfl rfl
  exact h ⟨rfl, rfl⟩

theorem cutMarker?_append (h : ¬ marker <:+: front ++ ['_']) :
    cutMarker? (front ++ '_' :: '_' :: back) = some (front, back) := by
  induction front with
  | nil => rfl
  | cons d front ih =>
    rw [List.cons_append, marker_infix_cons_iff, not_or] at h
    -- which character comes next does not depend on what stands behind the first underscore
    have head : (front ++ ['_']).head? = (front ++ '_' :: '_' :: back).head? := by
      cases front <;> rfl
    rw [List.cons_append, cutMarker?_cons (head ▸ h.1), ih h.2]
    rfl

theorem cutMarker?_eq_some_iff :
    cutMarker? s = some (front, back) ↔
      s = front ++ '_' :: '_' :: back ∧ ¬ marker <:+: front ++ ['_'] := by
  refine ⟨fun h => ?_, fun ⟨hs, hf⟩ => hs ▸ cutMarker?_append hf⟩
  fun_induction cutMarker? s generalizing front with
  | case1 r =>
    obtain ⟨rfl, rfl⟩ := Prod.mk.inj (Option.some.inj h)
    exact ⟨rfl, by decide⟩
  | case2 d r hd ih =>
    obtain ⟨⟨f, b⟩, hc, he⟩ := Option.map_eq_some_iff.1 h
    obtain ⟨rfl, rfl⟩ := Prod.mk.inj he
    obtain ⟨rfl, hn⟩ := ih hc
    refine ⟨rfl, fun hm => ?_⟩
    rcases marker_infix_cons_iff.1 hm with ⟨hd', hf⟩ | hm
    · cases f with
      | nil => exact hd _ hd' rfl
      | cons e f => exact hd _ hd' (congrArg (· :: _) (Option.some.inj hf))
    · exact hn hm
  | case3 => cases h

theorem cutMarker?_eq_none_iff : cutMarker? s = none ↔ ¬ marker <:+: s := by
  fun_induction cutMarker? s with
  | case1 r => simp [marker_infix_cons_iff]
  | case2 d r hd ih =>
    rw [Option.map_eq_none_iff, ih, marker_infix_cons_iff, not_or, and_iff_right]
    rintro ⟨hd', hr⟩
    obtain ⟨r', rfl⟩ := List.head?_eq_some_iff.1 hr
    exact hd r' hd' rfl
  | case3 => simp [marker]

end ReadableTrace.Name
