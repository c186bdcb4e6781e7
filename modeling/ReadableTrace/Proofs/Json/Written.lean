import ReadableTrace.Proofs.Json.Lexical

/-!
# Written JSON

`Written v cs` says that the characters `cs` spell the value `v`: every text and key as `quote`
writes it, every number by its digits, and any blanks between the parts. Reading goes the other way:
`ofChars?_of_written` says that a written value, with blanks around it, is read as the value.

The proof goes by the calls that reading may still make (`reads`). Each of them either
takes up a character or hands the same characters to a call that does, so twice the length of what
is written is enough.
-/

namespace ReadableTrace.Json

mutual

/-- The characters spell the value, from its first to its last one. -/
inductive Written : Json → List Char → Prop
  | nullWord : Written .null ['n', 'u', 'l', 'l']
  | trueWord : Written (.bool true) ['t', 'r', 'u', 'e']
  | falseWord : Written (.bool false) ['f', 'a', 'l', 's', 'e']
  | number (n : Nat) : Written (ofNat n) (Decimal.digits n)
  | text (s : String) : Written (ofString s) (quote s)
  | emptyList {b} : Blanks b → Written (.list []) ('[' :: (b ++ [']']))
  | list {vs cs} : WrittenItems vs cs → Written (.list vs) ('[' :: (cs ++ [']']))
  | emptyObject {b} : Blanks b → Written (.object []) ('\x7b' :: (b ++ ['\x7d']))
  | object {ms cs} : WrittenMembers ms cs → Written (.object ms) ('\x7b' :: (cs ++ ['\x7d']))

/-- The characters spell the items of a list, of which there is at least one. -/
inductive WrittenItems : List Json → List Char → Prop
  | last {v b cs b'} : Blanks b → Written v cs → Blanks b' → WrittenItems [v] (b ++ cs ++ b')
  | cons {v b cs b' vs ds} : Blanks b → Written v cs → Blanks b' → WrittenItems vs ds →
    WrittenItems (v :: vs) (b ++ cs ++ b' ++ ',' :: ds)

/-- The characters spell the members of an object, of which there is at least one. -/
inductive WrittenMembers : List (Option String × Json) → List Char → Prop
  | last {m cs} : WrittenMember m cs → WrittenMembers [m] cs
  | cons {m cs ms ds} : WrittenMember m cs → WrittenMembers ms ds →
    WrittenMembers (m :: ms) (cs ++ ',' :: ds)

/-- The characters spell a key and its value. -/
inductive WrittenMember : Option String × Json → List Char → Prop
  | mk {b b' d v cs d'} (k : String) : Blanks b → Blanks b' → Blanks d → Written v cs → Blanks d' →
    WrittenMember (some k, v) (b ++ quote k ++ b' ++ ':' :: (d ++ cs ++ d'))

end

variable {v : Json} {vs : List Json} {ms : List (Option String × Json)} {m : Option String × Json}
  {cs rest : List Char} {fuel : Nat}

/-! ## How written values begin -/

/-- A written value begins with a character that is not a blank and closes no list. -/
theorem Written.exists_cons (h : Written v cs) :
    ∃ c ds, cs = c :: ds ∧ isBlank c = false ∧ c ≠ ']' := by
  cases h with
  | number n =>
    obtain ⟨d, ds, hd, hc⟩ := exists_digits_cons n
    refine ⟨d, ds, hd, isBlank_of_isDigit hc, ?_⟩
    rintro rfl
    cases hc
  | _ => exact ⟨_, _, rfl, by decide, by decide⟩

theorem Written.skipBlanks_append {b : List Char} (h : Written v cs) (hb : Blanks b)
    (rest : List Char) : skipBlanks (b ++ (cs ++ rest)) = cs ++ rest := by
  obtain ⟨c, ds, rfl, hc, -⟩ := h.exists_cons
  rw [Json.skipBlanks_append hb, List.cons_append, skipBlanks_cons hc]

theorem WrittenItems.head?_skipBlanks (h : WrittenItems vs cs) (rest : List Char) :
    (skipBlanks (cs ++ rest)).head? ≠ some ']' := by
  cases h with
  | last hb h _ =>
    rw [List.append_assoc, List.append_assoc, h.skipBlanks_append hb]
    obtain ⟨c, ds, rfl, -, hc⟩ := h.exists_cons
    simpa using hc
  | cons hb h _ _ =>
    rw [List.append_assoc, List.append_assoc, List.append_assoc, h.skipBlanks_append hb]
    obtain ⟨c, ds, rfl, -, hc⟩ := h.exists_cons
    simpa using hc

/-- A written member begins with the quote of its key. -/
theorem WrittenMember.head?_skipBlanks (h : WrittenMember m cs) (rest : List Char) :
    (skipBlanks (cs ++ rest)).head? = some '"' := by
  cases h with
  | mk k hb _ _ _ _ =>
    simp only [List.append_assoc, quote, List.cons_append, skipBlanks_append hb]
    rfl

theorem WrittenMembers.head?_skipBlanks (h : WrittenMembers ms cs) (rest : List Char) :
    (skipBlanks (cs ++ rest)).head? = some '"' := by
  cases h with
  | last hm => exact hm.head?_skipBlanks rest
  | cons hm _ =>
    rw [List.append_assoc]
    exact hm.head?_skipBlanks _

/-! ## One call of reading -/

/-- Blanks in front of a value are passed over. -/
theorem value_skipBlanks (fuel : Nat) (cs : List Char) :
    value fuel (skipBlanks cs) = value fuel cs := by
  cases fuel with
  | zero => rfl
  | succ fuel => rw [value, value, skipBlanks_skipBlanks]

theorem items_skipBlanks (fuel : Nat) (cs : List Char) :
    items fuel (skipBlanks cs) = items fuel cs := by
  cases fuel with
  | zero => rfl
  | succ fuel => rw [items, items, value_skipBlanks]

theorem members_skipBlanks (fuel : Nat) (cs : List Char) :
    members fuel (skipBlanks cs) = members fuel cs := by
  cases fuel with
  | zero => rfl
  | succ fuel => rw [members, members, skipBlanks_skipBlanks]

theorem value_of_digit {c : Char} (hc : Decimal.isDigit c = true) :
    value (fuel + 1) (c :: cs) = (readNumber (c :: cs)).map fun p => (.number p.1, p.2) := by
  rw [value, skipBlanks_cons (isBlank_of_isDigit hc)]
  split
  case h_7 => rfl
  all_goals
    rename_i h
    obtain rfl := (List.cons.inj h).1
    cases hc

theorem value_quote (s : String) (rest : List Char) :
    value (fuel + 1) (quote s ++ rest) = some (ofString s, rest) := by
  rw [quote_append, value, skipBlanks_cons (by decide)]
  simp only [string_of_quote]
  rfl

theorem value_emptyList {b : List Char} (hb : Blanks b) (rest : List Char) :
    value (fuel + 1) ('[' :: (b ++ ']' :: rest)) = some (.list [], rest) := by
  rw [value, skipBlanks_cons (by decide)]
  simp only [skipBlanks_append hb, skipBlanks_cons (show isBlank ']' = false by decide)]

theorem value_emptyObject {b : List Char} (hb : Blanks b) (rest : List Char) :
    value (fuel + 1) ('\x7b' :: (b ++ '\x7d' :: rest)) = some (.object [], rest) := by
  rw [value, skipBlanks_cons (by decide)]
  simp only [skipBlanks_append hb, skipBlanks_cons (show isBlank '\x7d' = false by decide)]

/-- A list that is not closed at once has items. -/
theorem value_of_items (h : (skipBlanks cs).head? ≠ some ']') :
    value (fuel + 1) ('[' :: cs) = (items fuel cs).map fun p => (.list p.1, p.2) := by
  rw [value, skipBlanks_cons (by decide)]
  simp only
  split
  · rename_i hc
    rw [hc] at h
    exact absurd rfl h
  · rw [items_skipBlanks]

/-- An object that is not closed at once has members. -/
theorem value_of_members (h : (skipBlanks cs).head? ≠ some '\x7d') :
    value (fuel + 1) ('\x7b' :: cs) = (members fuel cs).map fun p => (.object p.1, p.2) := by
  rw [value, skipBlanks_cons (by decide)]
  simp only
  split
  · rename_i hc
    rw [hc] at h
    exact absurd rfl h
  · rw [members_skipBlanks]

theorem items_of_last {b : List Char} (hv : value fuel cs = some (v, b ++ ']' :: rest))
    (hb : Blanks b) : items (fuel + 1) cs = some ([v], rest) := by
  simp only [items, hv, Option.bind_eq_bind, Option.bind_some, skipBlanks_append hb,
    skipBlanks_cons (show isBlank ']' = false by decide)]

theorem items_of_comma {b r : List Char} (hv : value fuel cs = some (v, b ++ ',' :: r))
    (hb : Blanks b) (hi : items fuel r = some (vs, rest)) :
    items (fuel + 1) cs = some (v :: vs, rest) := by
  simp only [items, hv, hi, Option.bind_eq_bind, Option.bind_some, skipBlanks_append hb,
    skipBlanks_cons (show isBlank ',' = false by decide)]

theorem members_of_last {b b' d : List Char} {k : String} (hb : Blanks b) (hb' : Blanks b')
    (hv : value fuel cs = some (v, d ++ '\x7d' :: rest)) (hd : Blanks d) :
    members (fuel + 1) (b ++ (quote k ++ (b' ++ ':' :: cs))) = some ([(some k, v)], rest) := by
  simp only [members, quote_append, skipBlanks_append hb, skipBlanks_append hb',
    skipBlanks_append hd, skipBlanks_cons (show isBlank '"' = false by decide),
    skipBlanks_cons (show isBlank ':' = false by decide),
    skipBlanks_cons (show isBlank '\x7d' = false by decide), string_of_quote, hv,
    Option.bind_eq_bind, Option.bind_some]

theorem members_of_comma {b b' d r : List Char} {k : String} (hb : Blanks b) (hb' : Blanks b')
    (hv : value fuel cs = some (v, d ++ ',' :: r)) (hd : Blanks d)
    (hm : members fuel r = some (ms, rest)) :
    members (fuel + 1) (b ++ (quote k ++ (b' ++ ':' :: cs))) = some ((some k, v) :: ms, rest) := by
  simp only [members, quote_append, skipBlanks_append hb, skipBlanks_append hb',
    skipBlanks_append hd, skipBlanks_cons (show isBlank '"' = false by decide),
    skipBlanks_cons (show isBlank ':' = false by decide),
    skipBlanks_cons (show isBlank ',' = false by decide), string_of_quote, hv, hm,
    Option.bind_eq_bind, Option.bind_some]

/-- What follows a value in a list or object does not belong to a number. -/
theorem endsNumber_of_blanks {b r : List Char} {c : Char} (hb : Blanks b)
    (hc : c = ',' ∨ c = ']' ∨ c = '\x7d') : EndsNumber (b ++ c :: r) := by
  refine endsNumber_append hb fun d hd => ?_
  obtain rfl : c = d := by simpa using hd
  rcases hc with rfl | rfl | rfl <;> decide

/-! ## All calls -/

/-- With so many calls left, reading takes every written value off the front that has at most half
as many characters. -/
def ReadsValues (fuel : Nat) : Prop :=
  ∀ v cs rest, Written v cs → EndsNumber rest → 2 * cs.length ≤ fuel →
    value fuel (cs ++ rest) = some (v, rest)

/-- The same for the items of a list, up to the closing bracket. -/
def ReadsItems (fuel : Nat) : Prop :=
  ∀ vs cs rest, WrittenItems vs cs → 2 * cs.length + 1 ≤ fuel →
    items fuel (cs ++ ']' :: rest) = some (vs, rest)

/-- The same for the members of an object, up to the closing brace. -/
def ReadsMembers (fuel : Nat) : Prop :=
  ∀ ms cs rest, WrittenMembers ms cs → 2 * cs.length + 1 ≤ fuel →
    members fuel (cs ++ '\x7d' :: rest) = some (ms, rest)

/-- Blanks in front of a value change nothing. -/
theorem ReadsValues.of_blanks {b : List Char} (ih : ReadsValues fuel) (hb : Blanks b)
    (h : Written v cs) (hr : EndsNumber rest) (hf : 2 * cs.length ≤ fuel) :
    value fuel (b ++ (cs ++ rest)) = some (v, rest) := by
  rw [← value_skipBlanks, h.skipBlanks_append hb]
  exact ih v cs rest h hr hf

theorem readsValues_succ (ihi : ReadsItems fuel) (ihm : ReadsMembers fuel) :
    ReadsValues (fuel + 1) := by
  intro v cs rest h hr hf
  cases h with
  | nullWord => rfl
  | trueWord => rfl
  | falseWord => rfl
  | number n =>
    obtain ⟨d, ds, hd, hc⟩ := exists_digits_cons n
    have hn := readNumber_digits n hr
    rw [hd, List.cons_append] at hn ⊢
    rw [value_of_digit hc, hn]
    rfl
  | text s => exact value_quote s rest
  | emptyList hb =>
    rw [List.cons_append, List.append_assoc, List.singleton_append]
    exact value_emptyList hb rest
  | list hi =>
    simp only [List.length_cons, List.length_append, List.length_nil] at hf
    rw [List.cons_append, List.append_assoc, List.singleton_append,
      value_of_items (hi.head?_skipBlanks _), ihi _ _ _ hi (by omega)]
    rfl
  | emptyObject hb =>
    rw [List.cons_append, List.append_assoc, List.singleton_append]
    exact value_emptyObject hb rest
  | object hm =>
    simp only [List.length_cons, List.length_append, List.length_nil] at hf
    have hq := hm.head?_skipBlanks ('\x7d' :: rest)
    rw [List.cons_append, List.append_assoc, List.singleton_append,
      value_of_members (by rw [hq]; decide), ihm _ _ _ hm (by omega)]
    rfl

theorem readsItems_succ (ihv : ReadsValues fuel) (ihi : ReadsItems fuel) :
    ReadsItems (fuel + 1) := by
  intro vs cs rest h hf
  cases h with
  | last hb h hb' =>
    simp only [List.length_append] at hf
    rw [List.append_assoc, List.append_assoc]
    refine items_of_last (ihv.of_blanks hb h ?_ (by omega)) hb'
    exact endsNumber_of_blanks hb' (.inr (.inl rfl))
  | cons hb h hb' hi =>
    simp only [List.length_append, List.length_cons] at hf
    rw [List.append_assoc, List.append_assoc, List.append_assoc, List.cons_append]
    refine items_of_comma (ihv.of_blanks hb h ?_ (by omega)) hb' (ihi _ _ rest hi (by omega))
    exact endsNumber_of_blanks hb' (.inl rfl)

theorem readsMembers_succ (ihv : ReadsValues fuel) (ihm : ReadsMembers fuel) :
    ReadsMembers (fuel + 1) := by
  intro ms cs rest h hf
  cases h with
  | last hm =>
    obtain ⟨k, hb, hb', hd, h, hd'⟩ := hm
    simp only [List.length_append, List.length_cons] at hf
    simp only [List.append_assoc, List.cons_append]
    refine members_of_last hb hb' (ihv.of_blanks hd h ?_ (by omega)) hd'
    exact endsNumber_of_blanks hd' (.inr (.inr rfl))
  | cons hm hms =>
    obtain ⟨k, hb, hb', hd, h, hd'⟩ := hm
    simp only [List.length_append, List.length_cons] at hf
    simp only [List.append_assoc, List.cons_append]
    refine members_of_comma hb hb' (ihv.of_blanks hd h ?_ (by omega)) hd'
      (ihm _ _ rest hms (by omega))
    exact endsNumber_of_blanks hd' (.inl rfl)

/-- Twice the length of what is written is enough calls to read it. -/
theorem reads (fuel : Nat) : ReadsValues fuel ∧ ReadsItems fuel ∧ ReadsMembers fuel := by
  induction fuel with
  | zero =>
    refine ⟨fun v cs rest h _ hf => ?_, fun _ _ _ _ hf => ?_, fun _ _ _ _ hf => ?_⟩
    · obtain ⟨c, ds, rfl, -, -⟩ := h.exists_cons
      rw [List.length_cons] at hf
      omega
    · omega
    · omega
  | succ fuel ih =>
    obtain ⟨ihv, ihi, ihm⟩ := ih
    exact ⟨readsValues_succ ihi ihm, readsItems_succ ihv ihi, readsMembers_succ ihv ihm⟩

/-- **What is written is read.** A written value with blanks around it is read as the value. -/
theorem ofChars?_of_written {b b' : List Char} (hb : Blanks b) (h : Written v cs)
    (hb' : Blanks b') : ofChars? (b ++ cs ++ b') = some v := by
  have hr : EndsNumber b' := by
    have := endsNumber_append hb' (r := []) (by simp [EndsNumber])
    rwa [List.append_nil] at this
  have hv : value (2 * (b ++ cs ++ b').length + 2) (b ++ cs ++ b') = some (v, b') := by
    rw [List.append_assoc, List.length_append, List.length_append]
    exact (reads _).1.of_blanks hb h hr (by omega)
  rw [ofChars?, hv]
  simp [skipBlanks_of_blanks hb']

end ReadableTrace.Json
