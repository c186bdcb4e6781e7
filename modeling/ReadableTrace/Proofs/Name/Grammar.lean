import ReadableTrace.Proofs.Name.Cut
import ReadableTrace.Proofs.Spelling.Names
import Mathlib.Data.List.TakeWhile

/-!
# The grammar of made-up names

A made-up name is `around<outer>between>tag__inner|rest`, where `around<`, `between>` and `|rest`
may be missing. `MadeUp` is such a name in parts, each free of what would end it earlier, and
`MadeUp.text` puts the parts together.

* A made-up name is decoded to its outer and its inner part, without their arity suffixes, and to
  the kind that its tag stands for (`MadeUp.split_text`).
* The parts can be told from the text (`MadeUp.text_injective`), and every text with a `>` and a
  marker somewhere behind it has parts (`MadeUp.exists_text_eq`).
* `decode_recovers_parts` puts these together with what becomes of all other names.
-/

namespace ReadableTrace.Name

variable {raw front back : List Char}

/-! ## Kinds -/

/-- The letter that stands for a kind. -/
def Kind.letter : Kind → Char
  | closure => 'b'
  | localFunction => 'g'
  | backingField => 'k'

theorem ofTag?_eq_some_iff {tag : List Char} {k : Kind} :
    Kind.ofTag? tag = some k ↔ tag = [k.letter] := by
  constructor
  · intro h
    rw [Kind.ofTag?.eq_def] at h
    split at h <;> cases h <;> rfl
  · rintro rfl
    cases k <;> rfl

/-! ## Made-up names in parts -/

/-- What begins with a bar, if it is there. -/
def barred : Option (List Char) → List Char
  | none => []
  | some s => '|' :: s

theorem barred_injective : Function.Injective barred := by
  rintro (_ | s) (_ | s') h
  · rfl
  · cases h
  · cases h
  · exact congrArg some (List.cons.inj h).2

theorem exists_barred (s : List Char) : ∃ inner rest, s = inner ++ barred rest ∧ '|' ∉ inner := by
  cases hc : cut? '|' s with
  | none => exact ⟨s, none, (List.append_nil s).symm, cut?_eq_none_iff.1 hc⟩
  | some p =>
    obtain ⟨hs, hi⟩ := cut?_eq_some_iff.1 hc
    exact ⟨p.1, some p.2, hs, hi⟩

/-- The parts of a made-up name. -/
@[ext] structure MadeUp where
  /-- What precedes the bracket in front of the outer part, if that bracket is there. -/
  around : Option (List Char)
  /-- The outer part: where the code was written. -/
  outer : List Char
  /-- What stands between the outer part and the bracket in front of the tag, if these are not the
  same bracket. -/
  between : Option (List Char)
  /-- The tag: why the name was made up. -/
  tag : List Char
  /-- The inner part. -/
  inner : List Char
  /-- What follows the bar, if there is one. -/
  rest : Option (List Char)
  around_unclosed : '>' ∉ ending '<' around
  outer_unopened : '<' ∉ outer
  outer_unclosed : '>' ∉ outer
  tag_unclosed : '>' ∉ tag
  /-- No marker begins in front of the one that ends the tag. -/
  unmarked : ¬ marker <:+: ending '>' between ++ tag ++ ['_']
  inner_unbarred : '|' ∉ inner

namespace MadeUp

variable (m : MadeUp)

/-- What precedes the first closing bracket. -/
def head : List Char := ending '<' m.around ++ m.outer

/-- What stands between that bracket and the marker. -/
def tagged : List Char := ending '>' m.between ++ m.tag

/-- What follows the marker. -/
def last : List Char := m.inner ++ barred m.rest

/-- The name. -/
def text : List Char := m.head ++ '>' :: (m.tagged ++ marker ++ m.last)

theorem cut?_text : cut? '>' m.text = some (m.head, m.tagged ++ marker ++ m.last) := by
  refine cut?_eq_some_iff.2 ⟨rfl, fun h => ?_⟩
  rcases List.mem_append.1 h with h | h
  · exact m.around_unclosed h
  · exact m.outer_unclosed h

theorem cutMarker?_tagged :
    cutMarker? (m.tagged ++ marker ++ m.last) = some (m.tagged, m.last) :=
  cutMarker?_eq_some_iff.2 ⟨List.append_assoc .., m.unmarked⟩

theorem afterLast_head : afterLast '<' m.head = m.outer :=
  afterLast_eq_iff.2 ⟨m.around, rfl, m.outer_unopened⟩

theorem afterLast_tagged : afterLast '>' m.tagged = m.tag :=
  afterLast_eq_iff.2 ⟨m.between, rfl, m.tag_unclosed⟩

theorem takeWhile_last : m.last.takeWhile (· ≠ '|') = m.inner := by
  have hi : ∀ c ∈ m.inner, decide (c ≠ '|') = true :=
    fun c hc => decide_eq_true fun h => m.inner_unbarred (h ▸ hc)
  rw [last, List.takeWhile_append_of_pos hi]
  cases m.rest <;> simp [barred]

/-- A made-up name is taken apart into its outer and its inner part and its kind. -/
theorem split_text :
    split m.text = ⟨dropArity (.ofList m.outer),
      some ⟨dropArity (.ofList m.inner), Kind.ofTag? m.tag⟩⟩ := by
  rw [split, m.cut?_text]
  simp only [m.cutMarker?_tagged, m.afterLast_head, m.afterLast_tagged, m.takeWhile_last]

/-- A name has at most one set of parts. -/
theorem text_injective : Function.Injective text := by
  intro m m' h
  have cuts := m.cut?_text
  rw [h, m'.cut?_text, Option.some.injEq, Prod.mk.injEq] at cuts
  obtain ⟨hh, hb⟩ := cuts
  have marks := m.cutMarker?_tagged
  rw [← hb, m'.cutMarker?_tagged, Option.some.injEq, Prod.mk.injEq] at marks
  obtain ⟨ht, hl⟩ := marks
  have outer : m.outer = m'.outer := by rw [← m.afterLast_head, ← hh, m'.afterLast_head]
  have tag : m.tag = m'.tag := by rw [← m.afterLast_tagged, ← ht, m'.afterLast_tagged]
  have inner : m.inner = m'.inner := by rw [← m.takeWhile_last, ← hl, m'.takeWhile_last]
  -- what is left of each piece is one of the optional parts
  have around : m.around = m'.around := by
    rw [head, head, outer] at hh
    exact (ending_injective (List.append_cancel_right hh)).symm
  have between : m.between = m'.between := by
    rw [tagged, tagged, tag] at ht
    exact (ending_injective (List.append_cancel_right ht)).symm
  have rest : m.rest = m'.rest := by
    rw [last, last, inner] at hl
    exact (barred_injective (List.append_cancel_left hl)).symm
  exact MadeUp.ext around outer between tag inner rest

/-- A name with a marker somewhere behind a closing bracket has parts. -/
theorem exists_text_eq (front : List Char) (h : marker <:+: back) :
    ∃ m : MadeUp, m.text = front ++ '>' :: back := by
  obtain ⟨head, behind, hc, hb⟩ := exists_cut?_of_append '>' front back
  obtain ⟨hs, hf⟩ := cut?_eq_some_iff.1 hc
  cases hk : cutMarker? behind with
  | none => exact absurd (h.trans hb.isInfix) (cutMarker?_eq_none_iff.1 hk)
  | some p =>
    obtain ⟨tagged, last⟩ := p
    obtain ⟨rfl, hm⟩ := cutMarker?_eq_some_iff.1 hk
    obtain ⟨around, hh, ho⟩ := exists_afterLast '<' head
    obtain ⟨between, ht, hg⟩ := exists_afterLast '>' tagged
    obtain ⟨inner, rest, rfl, hi⟩ := exists_barred last
    rw [hh] at hf
    rw [ht] at hm
    refine ⟨{
      around, outer := afterLast '<' head, between, tag := afterLast '>' tagged
      inner, rest
      around_unclosed := fun h => hf (List.mem_append_left _ h)
      outer_unopened := ho
      outer_unclosed := fun h => hf (List.mem_append_right _ h)
      tag_unclosed := hg
      unmarked := hm
      inner_unbarred := hi }, ?_⟩
    rw [text, MadeUp.head, MadeUp.tagged, MadeUp.last, ← hh, ← ht, hs]
    simp [marker]

end MadeUp

/-! ## Decoding -/

theorem isBlank_of_mem (h : '>' ∈ raw) : Text.isBlank (.ofList raw) = false := by
  rw [Bool.eq_false_iff, ne_eq, Text.isBlank_iff, String.toList_ofList]
  exact fun hb => absurd (hb _ h) (by decide)

theorem decode_ofList_of_mem (h : '>' ∈ raw) : decode (.ofList raw) = .ok (split raw) := by
  rw [decode, isBlank_of_mem h, String.toList_ofList]
  rfl

theorem split_of_not_mem (h : '>' ∉ raw) : split raw = ⟨dropArity (.ofList raw), none⟩ := by
  rw [split, cut?_eq_none_iff.2 h]

theorem split_of_unmarked (hf : '>' ∉ front) (hb : ¬ marker <:+: back) :
    split (front ++ '>' :: back) = ⟨dropArity (.ofList (afterLast '<' front)), none⟩ := by
  rw [split, cut?_eq_some_iff.2 ⟨rfl, hf⟩]
  simp only [cutMarker?_eq_none_iff.2 hb]

theorem split_logical (h : cut? '>' raw = some (front, back)) :
    (split raw).logical = dropArity (.ofList (afterLast '<' front)) := by
  simp only [split, h]
  cases cutMarker? back <;> rfl

theorem split_inner (h : cut? '>' raw = some (front, back)) {i : Inner}
    (hi : i ∈ (split raw).inner) :
    ∃ last : List Char, i.name = dropArity (.ofList (last.takeWhile (· ≠ '|'))) := by
  simp only [split, h] at hi
  cases hk : cutMarker? back with
  | none => simp [hk] at hi
  | some p =>
    simp only [hk, Option.mem_def, Option.some.injEq] at hi
    exact ⟨p.2, hi ▸ rfl⟩

/-- Brackets do not get into an outer part, nor bars into an inner one. -/
theorem split_clear (h : '>' ∈ raw) :
    '<' ∉ (split raw).logical.toList ∧ '>' ∉ (split raw).logical.toList ∧
      ∀ i ∈ (split raw).inner, '|' ∉ i.name.toList := by
  cases hc : cut? '>' raw with
  | none => exact absurd h (cut?_eq_none_iff.1 hc)
  | some p =>
    obtain ⟨around, hs, ho⟩ := exists_afterLast '<' p.1
    have hg : '>' ∉ afterLast '<' p.1 := fun hm =>
      (cut?_eq_some_iff.1 hc).2 (hs ▸ List.mem_append_right _ hm)
    rw [split_logical hc]
    refine ⟨not_mem_dropArity ho, not_mem_dropArity hg, fun i hi => ?_⟩
    obtain ⟨last, hl⟩ := split_inner hc hi
    rw [hl]
    exact not_mem_dropArity fun hm => by simpa using List.mem_takeWhile_imp hm

/-- **Decoding recovers the parts of a made-up name.** Only a blank name is refused. A name without
a closing bracket stands for itself. A made-up name gives its outer and its inner part, without
arity suffixes, and the kind whose letter is its tag, whatever stands around, between and behind
them; and a name with a closing bracket and a marker behind it is made up in exactly one way. Any
other name with a closing bracket gives the innermost segment in front of that bracket. So the outer
part of a name with a closing bracket has no brackets, and its inner part has no bar. -/
theorem decode_recovers_parts :
    (∀ raw, ((∃ e, decode raw = .error e) ↔ Text.isBlank raw = true) ∧
      ∀ e, decode raw = .error e → e.kind = .invalid) ∧
    (∀ raw, Text.isBlank raw = false → '>' ∉ raw.toList →
      decode raw = .ok ⟨dropArity raw, none⟩) ∧
    (∀ m : MadeUp, ∃ kind, decode (.ofList m.text) =
        .ok ⟨dropArity (.ofList m.outer), some ⟨dropArity (.ofList m.inner), kind⟩⟩ ∧
      ∀ k, kind = some k ↔ m.tag = [k.letter]) ∧
    (∀ front back, marker <:+: back → ∃! m : MadeUp, m.text = front ++ '>' :: back) ∧
    (∀ front back, '>' ∉ front → ¬ marker <:+: back →
      ∃ around outer, front = ending '<' around ++ outer ∧ '<' ∉ outer ∧
        decode (.ofList (front ++ '>' :: back)) = .ok ⟨dropArity (.ofList outer), none⟩) ∧
    (∀ raw d, '>' ∈ raw.toList → decode raw = .ok d →
      '<' ∉ d.logical.toList ∧ '>' ∉ d.logical.toList ∧ ∀ i ∈ d.inner, '|' ∉ i.name.toList) := by
  refine ⟨fun raw => ⟨?_, ?_⟩, fun raw hb hn => ?_, fun m => ?_, fun front back h => ?_,
    fun front back hf hb => ?_, fun raw d hm hd => ?_⟩
  · simp only [Spelling.decode_eq_error_iff, exists_eq_left]
  · intro e he
    obtain ⟨rfl, -⟩ := Spelling.decode_eq_error_iff.1 he
    rfl
  · rw [decode, hb, split_of_not_mem hn, String.ofList_toList]
    rfl
  · have hm : '>' ∈ m.text := List.mem_append_right _ List.mem_cons_self
    exact ⟨_, by rw [decode_ofList_of_mem hm, m.split_text], fun k => ofTag?_eq_some_iff⟩
  · obtain ⟨m, hm⟩ := MadeUp.exists_text_eq front h
    exact ⟨m, hm, fun m' hm' => MadeUp.text_injective (hm'.trans hm.symm)⟩
  · obtain ⟨around, hs, ho⟩ := exists_afterLast '<' front
    have hm : '>' ∈ front ++ '>' :: back := List.mem_append_right _ List.mem_cons_self
    exact ⟨around, _, hs, ho, by rw [decode_ofList_of_mem hm, split_of_unmarked hf hb]⟩
  · rw [← raw.ofList_toList, decode_ofList_of_mem hm] at hd
    obtain rfl := Except.ok.inj hd
    exact split_clear hm

/-- A plain name, a made-up name inside another, and a name without a marker. -/
theorem decode_bracketed_names :
    (Text.isBlank "List`1" = false ∧ '>' ∉ "List`1".toList ∧
      decode "List`1" = .ok ⟨"List", none⟩) ∧
    (marker <:+: "b__0_0>d__1|2".toList ∧
      ∃! m : MadeUp, m.text = "<<Main".toList ++ '>' :: "b__0_0>d__1|2".toList) ∧
    ('>' ∉ "App.Worker+<".toList ∧ ¬ marker <:+: ['c'] ∧
      decode "App.Worker+<>c" = .ok ⟨"", none⟩) ∧
    ('>' ∈ "<Map`1>g__Get`2|4".toList ∧ ∃ d, decode "<Map`1>g__Get`2|4" = .ok d ∧
      '<' ∉ d.logical.toList) := by
  obtain ⟨-, plain, -, unique, unmarked, clear⟩ := decode_recovers_parts
  have hb : Text.isBlank "List`1" = false := by decide
  have hn : '>' ∉ "List`1".toList := by decide
  have hm : marker <:+: "b__0_0>d__1|2".toList := by decide
  have hf : '>' ∉ "App.Worker+<".toList := by decide
  have hu : ¬ marker <:+: ['c'] := by decide
  have hg : '>' ∈ "<Map`1>g__Get`2|4".toList := by decide
  refine ⟨⟨hb, hn, plain _ hb hn⟩, ⟨hm, unique _ _ hm⟩, ⟨hf, hu, ?_⟩, ⟨hg, _, rfl, ?_⟩⟩
  · obtain ⟨around, outer, hs, ho, hd⟩ := unmarked _ _ hf hu
    have inner : afterLast '<' "App.Worker+<".toList = outer :=
      afterLast_eq_iff.2 ⟨around, hs, ho⟩
    obtain rfl : [] = outer := inner ▸ (by decide)
    exact hd
  · exact (clear _ _ hg rfl).1

end ReadableTrace.Name
