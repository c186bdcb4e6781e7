import ReadableTrace.Json.Printer
import ReadableTrace.Json.Reader
import Mathlib.Data.List.DropRight
import Mathlib.Data.List.TakeDrop
import Mathlib.Tactic.SplitIfs

/-!
# The lexical parts of JSON

What is written is read back, whatever follows it.

* Every character that `escape` writes is read as one code unit (`units_escape`), and since no
  character is half of another the units are joined to the characters they came from. So a text in
  quotes is read as the text (`string_of_quote`).
* A natural number is read as the number if nothing follows that could belong to it
  (`readNumber_digits`).
* Blanks are passed over (`skipBlanks_append`).
-/

namespace ReadableTrace.Json

variable {c : Char} {cs r : List Char}

/-! ## Texts -/

/-- A character is no half of a character. -/
theorem isHalf_toNat (c : Char) : isHighHalf c.toNat = false ∧ isLowHalf c.toNat = false := by
  have hv : c.toNat < 0xD800 ∨ 0xDFFF < c.toNat ∧ c.toNat < 0x110000 := c.valid
  simp only [isHighHalf, isLowHalf, Bool.and_eq_false_iff, decide_eq_false_iff_not]
  omega

theorem joinHalves_toNat (cs : List Char) : joinHalves (cs.map Char.toNat) = some cs := by
  induction cs with
  | nil => rfl
  | cons c cs ih =>
    obtain ⟨hh, hl⟩ := isHalf_toNat c
    rw [List.map_cons]
    unfold joinHalves
    simp [hh, hl, ih]

/-- A character that stands for itself. -/
theorem units_of_plain (hq : c ≠ '"') (hb : c ≠ '\\') (hc : ¬ c.toNat < 0x20) :
    units (c :: r) = (units r).map fun p => (c.toNat :: p.1, p.2) := by
  rw [units]
  · rw [if_neg hc]
    cases units r <;> rfl
  · exact hq
  · rintro _ _ _ _ _ rfl _
    exact hb rfl
  · rintro _ _ rfl _
    exact hb rfl

/-- A backslash and the letter of an escape. -/
theorem units_of_escaped {n : Nat} (hu : c ≠ 'u') (hc : escaped? c = some n) :
    units ('\\' :: c :: r) = (units r).map fun p => (n :: p.1, p.2) := by
  rw [units]
  · rw [hc]
    cases units r <;> rfl
  · rintro _ _ _ _ _ rfl _
    exact hu rfl

/-- An escape by number. -/
theorem units_of_padded {n : Nat} (hn : n < 0x10000) :
    units ('\\' :: 'u' :: (Hex.padded 4 n ++ r)) = (units r).map fun p => (n :: p.1, p.2) := by
  have hv := Hex.value?_padded 4 n hn
  simp only [Hex.padded, List.nil_append, List.cons_append] at hv ⊢
  rw [units, hv]
  cases units r <;> rfl

/-- Every character is read back as one code unit, however it is written. -/
theorem units_escape (c : Char) (r : List Char) :
    units (escape c ++ r) = (units r).map fun p => (c.toNat :: p.1, p.2) := by
  unfold escape
  split_ifs with hq hb h8 hf hn hr ht hc
  case pos => subst hq; exact units_of_escaped (by decide) rfl
  case pos => subst hb; exact units_of_escaped (by decide) rfl
  case pos => subst h8; exact units_of_escaped (by decide) rfl
  case pos => subst hf; exact units_of_escaped (by decide) rfl
  case pos => subst hn; exact units_of_escaped (by decide) rfl
  case pos => subst hr; exact units_of_escaped (by decide) rfl
  case pos => subst ht; exact units_of_escaped (by decide) rfl
  case pos => exact units_of_padded (by omega)
  case neg => exact units_of_plain hq hb hc

theorem units_flatMap_escape (cs r : List Char) :
    units (cs.flatMap escape ++ '"' :: r) = some (cs.map Char.toNat, r) := by
  induction cs with
  | nil => simp [units]
  | cons c cs ih => rw [List.flatMap_cons, List.append_assoc, units_escape, ih]; rfl

theorem quote_append (s : String) (r : List Char) :
    quote s ++ r = '"' :: (s.toList.flatMap escape ++ '"' :: r) := by
  simp [quote]

/-- A text in quotes is read as the text, from behind the opening quote. -/
theorem string_of_quote (s : String) (r : List Char) :
    string (s.toList.flatMap escape ++ '"' :: r) = some (some s, r) := by
  simp [string, units_flatMap_escape, joinHalves_toNat]

/-! ## Numbers -/

/-- Nothing in front of which a number would go on. -/
def EndsNumber (cs : List Char) : Prop :=
  ∀ c ∈ cs.head?, Decimal.isDigit c = false ∧ c ≠ '.' ∧ c ≠ 'e' ∧ c ≠ 'E'

theorem exists_digits_cons (n : Nat) :
    ∃ d ds, Decimal.digits n = d :: ds ∧ Decimal.isDigit d = true := by
  obtain ⟨d, ds, hd⟩ := List.exists_cons_of_ne_nil (Decimal.digits_ne_nil n)
  exact ⟨d, ds, hd, Decimal.isDigit_of_mem_digits (hd ▸ List.mem_cons_self)⟩

/-- Only zero is written with a zero in front. -/
theorem head_digits_eq_zero_iff (n : Nat) : (Decimal.digits n).head? = some '0' ↔ n = 0 := by
  fun_induction Decimal.digits n with
  | case1 n h =>
    have : ∀ m : Fin 10, [Decimal.digit m].head? = some '0' ↔ m.val = 0 := by decide
    exact this ⟨n, h⟩
  | case2 n h ih =>
    rw [List.head?_append_of_ne_nil _ (Decimal.digits_ne_nil (n / 10)), ih]
    omega

theorem digitRun_digits (n : Nat) (hr : ∀ c ∈ r.head?, Decimal.isDigit c = false) :
    digitRun (Decimal.digits n ++ r) = some (Decimal.digits n, r) := by
  have hd : ∀ c ∈ Decimal.digits n, Decimal.isDigit c = true :=
    fun c hc => Decimal.isDigit_of_mem_digits hc
  have hspan : (Decimal.digits n ++ r).span Decimal.isDigit = (Decimal.digits n, r) := by
    rw [List.span_eq_takeWhile_dropWhile, List.takeWhile_append_of_pos hd,
      List.dropWhile_append_of_pos hd]
    cases r with
    | nil => simp
    | cons c r => simp [hr c rfl]
  unfold digitRun
  rw [hspan]
  split
  · rename_i h
    exact absurd (congrArg Prod.fst h) (Decimal.digits_ne_nil n)
  · rfl

theorem wholePart_digits (n : Nat) (hr : ∀ c ∈ r.head?, Decimal.isDigit c = false) :
    wholePart (Decimal.digits n ++ r) = some (n, r) := by
  by_cases hn : n = 0
  · subst hn
    rw [Decimal.digits]
    rfl
  · rw [wholePart]
    · simp [digitRun_digits n hr, Decimal.value_digits]
    intro r' h
    obtain ⟨d, ds, hd, -⟩ := exists_digits_cons n
    rw [hd] at h
    refine hn ((head_digits_eq_zero_iff n).1 ?_)
    rw [hd, List.head?_cons, (List.cons.inj h).1]

/-- A natural number is read back from its digits. -/
theorem readNumber_digits (n : Nat) (hr : EndsNumber r) :
    readNumber (Decimal.digits n ++ r) = some (.ofNat n, r) := by
  have hw := wholePart_digits n fun c hc => (hr c hc).1
  have hf : fractionPart r = some ([], r) := by
    rw [fractionPart]
    rintro r' rfl
    exact (hr '.' rfl).2.1 rfl
  have he : exponentPart r = some (none, r) := by
    rw [exponentPart]
    · rintro r' rfl
      exact (hr 'e' rfl).2.2.1 rfl
    · rintro r' rfl
      exact (hr 'E' rfl).2.2.2 rfl
  rw [readNumber]
  · simp only [unsignedNumber, hw, hf, he, Option.bind_eq_bind, Option.bind_some]
    rfl
  · intro r' h
    obtain ⟨d, ds, hd, hc⟩ := exists_digits_cons n
    rw [hd] at h
    obtain rfl : d = '-' := (List.cons.inj h).1
    cases hc

/-! ## Blanks -/

/-- Nothing but blanks. -/
def Blanks (cs : List Char) : Prop := ∀ c ∈ cs, isBlank c = true

theorem skipBlanks_append {b : List Char} (hb : Blanks b) : skipBlanks (b ++ r) = skipBlanks r :=
  List.dropWhile_append_of_pos hb

theorem skipBlanks_of_blanks {b : List Char} (hb : Blanks b) : skipBlanks b = [] := by
  simpa [skipBlanks] using skipBlanks_append (r := []) hb

theorem skipBlanks_cons (hc : isBlank c = false) : skipBlanks (c :: r) = c :: r := by
  rw [skipBlanks, List.dropWhile_cons, hc]
  rfl

theorem skipBlanks_skipBlanks (cs : List Char) : skipBlanks (skipBlanks cs) = skipBlanks cs :=
  List.dropWhile_idempotent isBlank cs

theorem isBlank_eq_true_iff : isBlank c = true ↔ c = ' ' ∨ c = '\n' ∨ c = '\t' ∨ c = '\r' := by
  simp only [isBlank, Bool.or_eq_true, decide_eq_true_eq, or_assoc]

/-- A digit is not a blank. -/
theorem isBlank_of_isDigit (hc : Decimal.isDigit c = true) : isBlank c = false := by
  rw [← Bool.not_eq_true, isBlank_eq_true_iff]
  rintro (rfl | rfl | rfl | rfl) <;> cases hc

/-- Blanks do not belong to a number. -/
theorem endsNumber_append {b : List Char} (hb : Blanks b) (hr : EndsNumber r) :
    EndsNumber (b ++ r) := by
  rcases b with _ | ⟨c, b⟩
  · exact hr
  · intro d hd
    obtain rfl : c = d := by simpa using hd
    rcases isBlank_eq_true_iff.1 (hb c List.mem_cons_self) with rfl | rfl | rfl | rfl <;> decide

end ReadableTrace.Json
