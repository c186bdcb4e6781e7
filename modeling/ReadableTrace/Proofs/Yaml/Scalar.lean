import ReadableTrace.Yaml.Scalar

/-!
# Scalars as they are written

A text can be written plain, between single quotes, between double quotes or as a block whose line
breaks are kept. `Spelled form text cs` says that the characters `cs` write the text in one of these
ways, as they stand behind the colon of a key, with the end of the line. Each reader of a scalar
gives back the text of such characters and stops at the end of the line or in front of the next.

All readers but that of blocks collect blanks in a `Gap` until it is known what they mean. So each
lemma starts in any gap that the text may follow, and the induction goes through both.
-/

namespace ReadableTrace.Yaml

/-! ## Ways to write a text -/

/-- Whether a plain scalar may go on with a text: without line breaks, blanks at the end, a hash
behind a blank and a colon in front of one. -/
def goesOnPlain : Bool → List Char → Bool
  | afterBlank, [] => !afterBlank
  | afterBlank, c :: r =>
    !isBreak c &&
      if isBlank c then goesOnPlain true r
      else !(afterBlank && c = '#') && !(c = ':' && atBlank r) && goesOnPlain false r

/-- A text that can be written plain. -/
def IsPlain (cs : List Char) : Prop := startsPlain false cs = true ∧ goesOnPlain false cs = true

/-- The characters that stand for one character between double quotes. -/
inductive Escape : Char → List Char → Prop
  | itself {c} : c ≠ '"' → c ≠ '\\' → isBreak c = false → Escape c [c]
  | letter {e c} : escaped? e = some c → Escape c ['\\', e]
  | twoDigits {a b c} : Hex.value? [a, b] = some c.toNat → Escape c ['\\', 'x', a, b]
  | fourDigits {a₁ a₂ a₃ a₄ c} : Hex.value? [a₁, a₂, a₃, a₄] = some c.toNat →
    Escape c ['\\', 'u', a₁, a₂, a₃, a₄]
  | eightDigits {a₁ a₂ a₃ a₄ a₅ a₆ a₇ a₈ c} :
    Hex.value? [a₁, a₂, a₃, a₄, a₅, a₆, a₇, a₈] = some c.toNat →
    Escape c ['\\', 'U', a₁, a₂, a₃, a₄, a₅, a₆, a₇, a₈]

/-- The characters between double quotes stand for the text. -/
inductive DoubleSpelled : List Char → List Char → Prop
  | nil : DoubleSpelled [] []
  | cons {c cs es ds} : Escape c es → DoubleSpelled cs ds → DoubleSpelled (c :: cs) (es ++ ds)

/-- The characters between single quotes stand for the text. Of the line breaks only separators can
be written, each with the indentation of the next line behind it; there must be no blanks around
them. -/
inductive SingleSpelled : List Char → List Char → Prop
  | nil : SingleSpelled [] []
  | quote {cs ds} : SingleSpelled cs ds → SingleSpelled ('\'' :: cs) ('\'' :: '\'' :: ds)
  | char {c cs ds} : c ≠ '\'' → isBreak c = false →
    (isBlank c = true → ∀ d ∈ cs.head?, isBreak d = false) →
    SingleSpelled cs ds → SingleSpelled (c :: cs) (c :: ds)
  | separator {c cs ds} (n : Nat) : c = '\u2028' ∨ c = '\u2029' →
    (∀ d ∈ cs.head?, isBlank d = false ∧ (isBreak d = false → 0 < n)) →
    SingleSpelled cs ds → SingleSpelled (c :: cs) (c :: (List.replicate n ' ' ++ ds))

/-- The lines of a block, indented by `n`, from the beginning of a line or from within one. -/
def indented (n : Nat) : Bool → List Char → List Char
  | _, [] => []
  | atStart, c :: r =>
    if isBreak c then c :: indented n true r
    else (if atStart then List.replicate n ' ' else []) ++ c :: indented n false r

/-- What is said in front of a block about its indentation: nothing if the first line shows it. -/
inductive IndentMark (n : Nat) : List Char → List Char → Prop
  | digit {cs} : 1 ≤ n → n ≤ 9 → IndentMark n cs [Decimal.digit n]
  | shown {c cs} : 0 < n → isBlank c = false → isBreak c = false → IndentMark n (c :: cs) []

/-- The mark in front of a block for what is done with the line breaks at its end. -/
def Chomping.mark : Chomping → List Char
  | .strip => ['-']
  | .clip => []
  | .keep => ['+']

/-- The line breaks at the end of a block: what they stand for and how they are written. -/
inductive BlockEnding : Chomping → List Char → List Char → Prop
  | strip : BlockEnding .strip [] ['\n']
  | clip {b} : isBreak b = true → BlockEnding .clip [b] [b]
  | keep {b bs} : (∀ c ∈ b :: bs, isBreak c = true) → BlockEnding .keep (b :: bs) (b :: bs)

/-- The characters behind the bar of a block stand for the text: lines up to the last one that is
not empty, then line breaks. Without lines all breaks have to be kept. -/
inductive BlockSpelled : List Char → List Char → Prop
  | mk {lines indentMark chomping breaks written} (n : Nat) :
    (∀ c ∈ lines.getLast?, isBreak c = false) → (lines = [] → chomping = .keep) →
    IndentMark n lines indentMark → BlockEnding chomping breaks written →
    BlockSpelled (lines ++ breaks)
      (indentMark ++ (chomping.mark ++ '\n' :: (indented n true lines ++ written)))

/-- The characters behind the colon of a key, with the end of the line, stand for the text. -/
inductive Spelled : Form → List Char → List Char → Prop
  | plain {cs} : IsPlain cs → Spelled .plain cs (' ' :: (cs ++ ['\n']))
  | double {cs ds} : DoubleSpelled cs ds → Spelled .quoted cs (' ' :: '"' :: (ds ++ ['"', '\n']))
  | single {cs ds} : SingleSpelled cs ds →
    Spelled .quoted cs (' ' :: '\'' :: (ds ++ ['\'', '\n']))
  | block {cs ds} : BlockSpelled cs ds → Spelled .literal cs (' ' :: '|' :: ds)

/-- Between single quotes a text without these and without line breaks stands for itself. -/
theorem singleSpelled_self {cs : List Char} (h : ∀ c ∈ cs, c ≠ '\'' ∧ isBreak c = false) :
    SingleSpelled cs cs := by
  induction cs with
  | nil => exact .nil
  | cons c cs ih =>
    rw [List.forall_mem_cons] at h
    refine .char h.1.1 h.1.2 (fun _ d hd => ?_) (ih h.2)
    exact (h.2 d (List.mem_of_head? hd)).2

theorem Spelled.exists_cons {form : Form} {cs ds : List Char} (h : Spelled form cs ds) :
    ∃ rest, ds = ' ' :: rest := by
  cases h <;> exact ⟨_, rfl⟩

/-- A line begins here that goes on with no blank, if anything follows at all. -/
def Resumes (r : List Char) : Prop := ∀ c ∈ r.head?, isBlank c = false ∧ isBreak c = false

variable {c : Char} {cs ds r g : List Char} {column line least : Nat}

theorem push_push (front middle : List Char) (read : Option (List Char × Cursor)) :
    push front (push middle read) = push (front ++ middle) read := by
  cases read <;> simp [push]

/-! ## Reading plain scalars -/

theorem atBlank_append_newline (cs r : List Char) : atBlank (cs ++ '\n' :: r) = atBlank cs := by
  cases cs <;> rfl

/-- The line break behind a plain scalar ends it, if the next line is not indented. -/
theorem plain_newline (hl : 0 < least) (hr : Resumes r) :
    plain false least column line .none ('\n' :: r) = some ([], ⟨r, 0, line + 1, true⟩) := by
  rw [plain, if_pos (by decide)]
  rcases r with _ | ⟨c, r⟩
  · rfl
  · obtain ⟨hb, hk⟩ := hr c rfl
    simp [plain, hb, hk, Gap.none, Gap.addBreak, Gap.isBroken, hl]

/-- A character that goes on with a plain scalar, behind the blanks `g`. -/
theorem plain_cons (hbl : isBlank c = false) (hk : isBreak c = false) (hash : g = [] ∨ c ≠ '#')
    (colon : c = ':' → atBlank r = false) (hc : g = [] ∨ 0 < column) :
    plain false least column line (.blanks g) (c :: r) =
      push (g ++ [c]) (plain false least (column + 1) line .none r) := by
  have stray : isStrayColon false c r = false := by
    unfold isStrayColon
    split <;> simp
  have goesOn : endsPlain false c r = false := by
    simpa [endsPlain] using colon
  have notEnd : ¬ (g.isEmpty = false ∧ (c = '#' ∨ column = 0 ∧ atMarker (c :: r) = true)) := by
    rintro ⟨hg, rfl | ⟨rfl, -⟩⟩
    · rcases hash with rfl | hash
      · cases hg
      · exact hash rfl
    · rcases hc with rfl | hc
      · cases hg
      · exact absurd hc (Nat.lt_irrefl 0)
  rw [plain, if_neg (by simp [hk]), if_neg (by simp [hbl]),
    if_neg (by simpa [Gap.isBroken, Gap.isNone] using notEnd), stray,
    if_neg Bool.false_ne_true, goesOn, if_neg Bool.false_ne_true, Gap.text]

/-- A plain scalar is read up to the end of its line. -/
theorem plain_of_goesOnPlain {b : Bool} (h : goesOnPlain b cs = true) (hb : b = !g.isEmpty)
    (hc : 0 < column) (hl : 0 < least) (hr : Resumes r) (line : Nat) :
    plain false least column line (.blanks g) (cs ++ '\n' :: r) =
      some (g ++ cs, ⟨r, 0, line + 1, true⟩) := by
  induction cs generalizing b g column with
  | nil =>
    have none : g = [] := by simpa [goesOnPlain, hb] using h
    rw [none]
    exact plain_newline hl hr
  | cons c cs ih =>
    rw [goesOnPlain, Bool.and_eq_true, Bool.not_eq_true'] at h
    obtain ⟨hk, h⟩ := h
    rw [List.cons_append]
    by_cases hbl : isBlank c = true
    · rw [if_pos hbl] at h
      rw [plain, if_neg (by simp [hk]), if_pos hbl, if_neg (by simp [Gap.isBroken]), Gap.addBlank,
        ih h (by simp) (Nat.succ_pos _)]
      simp
    · simp only [hbl, Bool.false_eq_true, if_false, Bool.and_eq_true, Bool.not_eq_true',
        Bool.and_eq_false_iff, decide_eq_false_iff_not] at h
      obtain ⟨⟨hash, colon⟩, h⟩ := h
      have hash : g = [] ∨ c ≠ '#' := hash.imp_left fun hf => by simpa [hb] using hf
      have colon : c = ':' → atBlank (cs ++ '\n' :: r) = false := fun hc => by
        rw [atBlank_append_newline]
        exact colon.resolve_left fun h => h hc
      rw [plain_cons (Bool.eq_false_iff.2 hbl) hk hash colon (.inr hc), Gap.none,
        ih h rfl (Nat.succ_pos _)]
      simp [push]

/-! ## Keys -/

/-- The characters of keys. -/
def isKeyChar (c : Char) : Bool := c = '_' || ('a' ≤ c && c ≤ 'z')

theorem isBlank_of_isKeyChar (h : isKeyChar c = true) : isBlank c = false := by
  rw [← Bool.not_eq_true, isBlank, Bool.or_eq_true, decide_eq_true_eq, decide_eq_true_eq]
  rintro (rfl | rfl) <;> cases h

theorem isBreak_of_isKeyChar (h : isKeyChar c = true) : isBreak c = false := by
  rw [← Bool.not_eq_true, isBreak, Bool.or_eq_true, Bool.or_eq_true, decide_eq_true_eq,
    decide_eq_true_eq, decide_eq_true_eq]
  rintro ((rfl | rfl) | rfl) <;> cases h

theorem isIndicator_of_isKeyChar (h : isKeyChar c = true) : isIndicator c = false := by
  have indicators : "-?:,[]\x7b\x7d#&*!|>'\"%@`".toList.all (!isKeyChar ·) = true := by decide
  rw [← Bool.not_eq_true, isIndicator, List.contains_iff_mem]
  intro hc
  have := List.all_eq_true.1 indicators c hc
  rw [h] at this
  cases this

/-- A key is read up to its colon. -/
theorem plain_key (hk : ∀ c ∈ cs, isKeyChar c = true) (r : List Char) :
    plain false least column line .none (cs ++ ':' :: ' ' :: r) =
      some (cs, ⟨':' :: ' ' :: r, column + cs.length, line, false⟩) := by
  induction cs generalizing column with
  | nil => rfl
  | cons c cs ih =>
    rw [List.forall_mem_cons] at hk
    have colon : c ≠ ':' := by
      rintro rfl
      cases hk.1
    rw [List.cons_append, Gap.none, plain_cons (isBlank_of_isKeyChar hk.1)
      (isBreak_of_isKeyChar hk.1) (.inl rfl) (fun h => absurd h colon) (.inl rfl), ih hk.2, push,
      Option.map_some, List.length_cons, Nat.add_right_comm, Nat.add_assoc]
    rfl

/-! ## Reading between double quotes -/

theorem codePoint?_of_value {digits : List Char} (h : Hex.value? digits = some c.toNat) :
    codePoint? digits = some c := by
  have valid : c.toNat.isValidChar := c.valid
  simp [codePoint?, h, valid]

/-- A character between double quotes other than the quote and the backslash. -/
theorem doubleQuoted_cons (hb : c ≠ '\\') (hk : isBreak c = false) (hc : 0 < column)
    (r : List Char) : doubleQuoted column line (.blanks g) (c :: r) =
      if isBlank c then doubleQuoted (column + 1) line (.blanks (g ++ [c])) r
      else if c = '"' then some (g, ⟨r, column + 1, line, false⟩)
      else push (g ++ [c]) (doubleQuoted (column + 1) line .none r) := by
  have column : decide (column = 0) = false := by simpa using Nat.ne_of_gt hc
  rw [doubleQuoted.eq_def]
  split
  case h_6 h =>
    obtain ⟨rfl, rfl⟩ := List.cons.inj h
    rw [if_neg (by simp [hk]), column, Bool.false_and, if_neg Bool.false_ne_true, if_neg hb]
    rfl
  case h_1 h => cases h
  all_goals
    rename_i h
    exact absurd (List.cons.inj h).1 hb

/-- A backslash with a letter that stands for a character. -/
theorem doubleQuoted_letter {e : Char} (he : escaped? e = some c) (r : List Char) :
    doubleQuoted column line (.blanks g) ('\\' :: e :: r) =
      push (g ++ [c]) (doubleQuoted (column + 2) line .none r) := by
  have hk : ¬ isBreak e = true := by
    rw [isBreak, Bool.or_eq_true, Bool.or_eq_true, decide_eq_true_eq, decide_eq_true_eq,
      decide_eq_true_eq]
    rintro ((rfl | rfl) | rfl) <;> cases he
  rw [doubleQuoted.eq_def]
  split
  case h_5 h =>
    obtain ⟨rfl, rfl⟩ := List.cons.inj (List.cons.inj h).2
    rw [if_neg hk, he]
    rfl
  case h_1 h => cases h
  case h_6 other h =>
    obtain ⟨rfl, rfl⟩ := List.cons.inj h
    exact absurd rfl (other _ _ rfl)
  all_goals
    rename_i h
    obtain rfl := (List.cons.inj (List.cons.inj h).2).1
    cases he

/-- Behind a blank that stands for itself the gap is wider, and behind any other character there is
none. -/
theorem doubleQuoted_escape {es : List Char} (h : Escape c es) (hc : 0 < column) (r : List Char) :
    (isBlank c = true ∧ doubleQuoted column line (.blanks g) (es ++ r) =
        doubleQuoted (column + 1) line (.blanks (g ++ [c])) r) ∨
    ∃ n, doubleQuoted column line (.blanks g) (es ++ r) =
      push (g ++ [c]) (doubleQuoted (column + n) line .none r) := by
  cases h with
  | itself hq hb hk =>
    rw [List.singleton_append, doubleQuoted_cons hb hk hc, if_neg hq]
    by_cases hbl : isBlank c = true
    · exact .inl ⟨hbl, if_pos hbl⟩
    · exact .inr ⟨1, if_neg hbl⟩
  | letter he => exact .inr ⟨2, doubleQuoted_letter he r⟩
  | twoDigits hv =>
    refine .inr ⟨4, ?_⟩
    simp only [List.cons_append, List.nil_append]
    rw [doubleQuoted.eq_def]
    simp only [codePoint?_of_value hv]
    rfl
  | fourDigits hv =>
    refine .inr ⟨6, ?_⟩
    simp only [List.cons_append, List.nil_append]
    rw [doubleQuoted.eq_def]
    simp only [codePoint?_of_value hv]
    rfl
  | eightDigits hv =>
    refine .inr ⟨10, ?_⟩
    simp only [List.cons_append, List.nil_append]
    rw [doubleQuoted.eq_def]
    simp only [codePoint?_of_value hv]
    rfl

/-- A text between double quotes is read from the characters that stand for it. -/
theorem doubleQuoted_of_spelled (h : DoubleSpelled cs ds) (g : List Char) (hc : 0 < column)
    (line : Nat) (r : List Char) : ∃ n, doubleQuoted column line (.blanks g) (ds ++ '"' :: r) =
      some (g ++ cs, ⟨r, column + n, line, false⟩) := by
  induction h generalizing g column with
  | nil =>
    refine ⟨1, ?_⟩
    rw [List.nil_append, doubleQuoted_cons (by decide) (by decide) hc, List.append_nil]
    rfl
  | cons he _ ih =>
    rw [List.append_assoc]
    obtain ⟨-, hb⟩ | ⟨n, hn⟩ := doubleQuoted_escape (g := g) he hc _
    · obtain ⟨m, hm⟩ := ih (g ++ [_]) (Nat.succ_pos column)
      exact ⟨1 + m, by rw [hb, hm]; simp [Nat.add_assoc]⟩
    · obtain ⟨m, hm⟩ := ih [] (Nat.add_pos_left hc n)
      exact ⟨n + m, by rw [hn, Gap.none, hm]; simp [push, Nat.add_assoc]⟩

/-! ## Reading between single quotes -/

/-- What may follow a gap in a text between single quotes: a line break follows no blanks, and a
blank follows no line break. -/
def Follows : Gap → List Char → Prop
  | .blanks g, cs => g ≠ [] → ∀ d ∈ cs.head?, isBreak d = false
  | .lines first _, cs => (first = some '\u2028' ∨ first = some '\u2029') ∧
    ∀ d ∈ cs.head?, isBlank d = false

theorem text_lines {first : Option Char} {more : List Char}
    (h : first = some '\u2028' ∨ first = some '\u2029') :
    (Gap.lines first more).text = first.toList ++ more := by
  obtain rfl | rfl := h <;> rfl

/-- A separator makes a gap of lines that stands for what it was and the separator. -/
theorem addBreak_separator {gap : Gap} (hs : c = '\u2028' ∨ c = '\u2029')
    (hg : Follows gap (c :: cs)) : ∃ first more, gap.addBreak c = .lines first more ∧
      (first = some '\u2028' ∨ first = some '\u2029') ∧
      (Gap.lines first more).text = gap.text ++ [c] := by
  cases gap with
  | blanks g =>
    obtain rfl : g = [] := Decidable.byContradiction fun h => by
      obtain rfl | rfl := hs <;> exact absurd (hg h _ rfl) (by decide)
    refine ⟨some c, [], rfl, hs.imp (congrArg some) (congrArg some), ?_⟩
    obtain rfl | rfl := hs <;> rfl
  | lines first more =>
    refine ⟨first, more ++ [c], rfl, hg.1, ?_⟩
    rw [text_lines hg.1, text_lines hg.1, List.append_assoc]

/-- Blanks behind a line break are passed over. -/
theorem singleQuoted_indent {first : Option Char} {more : List Char} (n : Nat) (r : List Char) :
    singleQuoted column line (.lines first more) (List.replicate n ' ' ++ r) =
      singleQuoted (column + n) line (.lines first more) r := by
  induction n generalizing column with
  | zero => rfl
  | succ n ih =>
    rw [List.replicate_succ, List.cons_append, singleQuoted, if_neg (by decide),
      if_pos (by decide), Gap.addBlank, ih, Nat.add_right_comm, Nat.add_assoc]
    rintro _ ⟨⟩

/-- A text between single quotes is read from the characters that stand for it. -/
theorem singleQuoted_of_spelled (h : SingleSpelled cs ds) (gap : Gap) (column line : Nat)
    (hg : Follows gap cs) (hc : ∀ d ∈ cs.head?, isBreak d = false → 0 < column)
    (hr : r.head? ≠ some '\'') : ∃ column' line', singleQuoted column line gap (ds ++ '\'' :: r) =
      some (gap.text ++ cs, ⟨r, column', line', false⟩) := by
  induction h generalizing gap column line with
  | nil =>
    refine ⟨column + 1, line, ?_⟩
    rw [List.nil_append, singleQuoted, if_neg (by decide), if_neg (by decide),
      if_neg (by simp [atMarker]), if_pos rfl, List.append_nil]
    rintro _ _ rfl
    exact hr rfl
  | quote _ ih =>
    obtain ⟨column', line', h⟩ := ih .none (column + 2) line (fun h => absurd rfl h)
      (fun _ _ _ => Nat.succ_pos (column + 1))
    refine ⟨column', line', ?_⟩
    rw [List.cons_append, List.cons_append, singleQuoted, h]
    simp [push, Gap.none, Gap.text]
  | @char c cs ds hq hk hb _ ih =>
    have hc : 0 < column := hc c rfl hk
    have plainly : singleQuoted column line gap (c :: (ds ++ '\'' :: r)) = if isBlank c then
        singleQuoted (column + 1) line (gap.addBlank c) (ds ++ '\'' :: r)
        else push (gap.text ++ [c]) (singleQuoted (column + 1) line .none (ds ++ '\'' :: r)) := by
      have column : decide (column = 0) = false := by simpa using Nat.ne_of_gt hc
      rw [singleQuoted, if_neg (by simp [hk]), column, Bool.false_and, if_neg Bool.false_ne_true,
        if_neg hq]
      intros
      contradiction
    rw [List.cons_append, plainly]
    by_cases hbl : isBlank c = true
    · rw [if_pos hbl]
      cases gap with
      | blanks g =>
        obtain ⟨column', line', h⟩ := ih (.blanks (g ++ [c])) (column + 1) line (fun _ => hb hbl)
          (fun _ _ _ => Nat.succ_pos column)
        exact ⟨column', line', by rw [Gap.addBlank, h]; simp [Gap.text]⟩
      | lines first more => exact absurd (hg.2 c rfl) (by simp [hbl])
    · rw [if_neg hbl]
      obtain ⟨column', line', h⟩ := ih .none (column + 1) line (fun h => absurd rfl h)
        (fun _ _ _ => Nat.succ_pos column)
      exact ⟨column', line', by rw [h]; simp [push, Gap.none, Gap.text]⟩
  | @separator c cs ds n hs hd _ ih =>
    have hk : isBreak c = true := by
      obtain rfl | rfl := hs <;> rfl
    obtain ⟨first, more, hl, hf, ht⟩ := addBreak_separator hs hg
    obtain ⟨column', line', h⟩ := ih (.lines first more) (0 + n) (line + 1)
      ⟨hf, fun d hm => (hd d hm).1⟩ (fun d hm hb => (Nat.zero_add n).symm ▸ (hd d hm).2 hb)
    refine ⟨column', line', ?_⟩
    rw [List.cons_append, List.append_assoc, singleQuoted, if_pos hk, hl, singleQuoted_indent, h,
      ht, List.append_assoc, List.singleton_append]
    rintro _ rfl
    cases hk

/-! ## Reading blocks -/

section Blocks

variable {h : BlockHeader} {n : Nat} {wasBlank : Bool} {first more : List Char}

theorem blockLines_indent {k : Nat} (hk : column + k ≤ n) (r : List Char) :
    blockLines h n false wasBlank first more column line (List.replicate k ' ' ++ r) =
      blockLines h n false wasBlank first more (column + k) line r := by
  induction k generalizing column with
  | zero => rfl
  | succ k ih =>
    rw [List.replicate_succ, List.cons_append, blockLines, if_neg (by decide),
      if_pos (by omega), if_pos rfl, ih (by omega), Nat.add_right_comm, Nat.add_assoc]

/-- Lines that do not end with a break are read as they are, from within a line and from the
beginning of one. -/
theorem blockLines_indented (hl : h.isLiteral = true) (ls r : List Char)
    (hb : ∀ c ∈ ls.getLast?, isBreak c = false) (wasBlank : Bool) (first more : List Char)
    (column line : Nat) :
    (∃ wasBlank' column' line', blockLines h n true wasBlank [] [] column line
        (indented n false ls ++ r) =
      push ls (blockLines h n true wasBlank' [] [] column' line' r)) ∧
    (ls ≠ [] → ∃ wasBlank' column' line', blockLines h n false wasBlank first more 0 line
        (indented n true ls ++ r) =
      push (first ++ more ++ ls) (blockLines h n true wasBlank' [] [] column' line' r)) := by
  induction ls generalizing wasBlank first more column line with
  | nil =>
    refine ⟨⟨wasBlank, column, line, ?_⟩, fun h => absurd rfl h⟩
    simp [push, indented]
  | cons c ls ih =>
    have hb' : ∀ c ∈ ls.getLast?, isBreak c = false := by
      intro d hd
      exact hb d (by rw [List.getLast?_cons, hd]; rfl)
    by_cases hk : isBreak c = true
    · have more_lines : ls ≠ [] := by
        rintro rfl
        exact absurd (hb c rfl) (by simp [hk])
      refine ⟨?_, fun _ => ?_⟩
      · obtain ⟨-, hs⟩ := ih hb' wasBlank [c] [] 0 (line + 1)
        obtain ⟨wasBlank', column', line', hs⟩ := hs more_lines
        refine ⟨wasBlank', column', line', ?_⟩
        rw [indented, if_pos hk, List.cons_append, blockLines, if_pos hk, hs]
        simp
      · obtain ⟨-, hs⟩ := ih hb' wasBlank first (more ++ [c]) 0 (line + 1)
        obtain ⟨wasBlank', column', line', hs⟩ := hs more_lines
        refine ⟨wasBlank', column', line', ?_⟩
        rw [indented, if_pos hk, List.cons_append, blockLines, if_pos hk, hs]
        simp
    · have inLine (wasBlank : Bool) (column : Nat) :=
        (ih hb' wasBlank [] [] (column + 1) line).1
      refine ⟨?_, fun _ => ?_⟩
      · obtain ⟨wasBlank', column', line', hs⟩ := inLine wasBlank column
        refine ⟨wasBlank', column', line', ?_⟩
        rw [indented, if_neg hk, if_neg Bool.false_ne_true, List.nil_append, List.cons_append,
          blockLines, if_neg hk, hs, push_push]
        rfl
      · obtain ⟨wasBlank', column', line', hs⟩ := inLine (isBlank c) n
        refine ⟨wasBlank', column', line', ?_⟩
        rw [indented, if_neg hk, if_pos rfl, List.append_assoc, List.cons_append,
          blockLines_indent (by omega), blockLines, if_neg hk, if_neg (by omega), Nat.zero_add, hs,
          push_push]
        simp [joined, hl]

/-- Line breaks at the end of a block. -/
theorem blockLines_breaks {bs : List Char} (hn : 0 < n) (hb : ∀ c ∈ bs, isBreak c = true)
    (hr : Resumes r) :
    blockLines h n false wasBlank first more 0 line (bs ++ r) =
      some (chomped h first (more ++ bs), ⟨r, 0, line + bs.length, true⟩) := by
  induction bs generalizing more line with
  | nil =>
    rcases r with _ | ⟨c, r⟩
    · simp [blockLines]
    · obtain ⟨hbl, hk⟩ := hr c rfl
      have blank : c ≠ ' ' ∧ c ≠ '\t' := by
        simpa [isBlank] using hbl
      simp [blockLines, hk, hn, blank]
  | cons b bs ih =>
    rw [List.forall_mem_cons] at hb
    rw [List.cons_append, blockLines, if_pos hb.1, ih hb.2]
    simp [Nat.add_assoc, Nat.add_comm 1]

/-- Lines and line breaks are read as they are, up to a line that is not indented. -/
theorem blockLines_of_ending {lines breaks written : List Char} (hl : h.isLiteral = true)
    (hn : 0 < n) (hb : ∀ c ∈ lines.getLast?, isBreak c = false)
    (hk : lines = [] → h.chomping = .keep) (he : BlockEnding h.chomping breaks written)
    (hr : Resumes r) (line : Nat) :
    ∃ line', blockLines h n false false [] [] 0 line (indented n true lines ++ (written ++ r)) =
      some (lines ++ breaks, ⟨r, 0, line', true⟩) := by
  obtain ⟨isLiteral, chomping, increment⟩ := h
  simp only at hl hk he
  have allBreaks : ∀ c ∈ written, isBreak c = true := by
    cases he with
    | strip => exact List.forall_mem_singleton.2 rfl
    | clip hb => simpa using hb
    | keep hb => exact hb
  by_cases none : lines = []
  · subst none
    obtain rfl := hk rfl
    refine ⟨line + written.length, ?_⟩
    rw [indented, List.nil_append, blockLines_breaks hn allBreaks hr]
    cases he
    simp [chomped]
  · obtain ⟨-, hs⟩ := blockLines_indented (h := ⟨isLiteral, chomping, increment⟩) (n := n) hl lines
      (written ++ r) hb false [] [] 0 line
    obtain ⟨wasBlank', column', line', hs⟩ := hs none
    rw [hs]
    -- the first break ends the last line, and what becomes of the others is up to the ending
    have last {b : Char} {bs : List Char} (hb : ∀ c ∈ b :: bs, isBreak c = true) :
        blockLines ⟨isLiteral, chomping, increment⟩ n true wasBlank' [] [] column' line'
          (b :: bs ++ r) = some (chomped ⟨isLiteral, chomping, increment⟩ [b] bs,
            ⟨r, 0, line' + 1 + bs.length, true⟩) := by
      rw [List.forall_mem_cons] at hb
      rw [List.cons_append, blockLines, if_pos hb.1, blockLines_breaks hn hb.2 hr, List.nil_append]
    cases he with
    | strip => exact ⟨line' + 1, by rw [last allBreaks]; simp [push, chomped]⟩
    | clip => exact ⟨line' + 1, by rw [last allBreaks]; simp [push, chomped]⟩
    | @keep b bs => exact ⟨line' + 1 + bs.length, by rw [last allBreaks]; simp [push, chomped]⟩

theorem widestIndent_replicate {m k : Nat} (hb : isBlank c = false) (hk : isBreak c = false) :
    widestIndent m m (List.replicate k ' ' ++ c :: r) = some (m + k) := by
  induction k generalizing m with
  | zero =>
    have blank : c ≠ ' ' ∧ c ≠ '\t' := by simpa [isBlank] using hb
    simp [widestIndent, hk, blank]
  | succ k ih =>
    rw [List.replicate_succ, List.cons_append, widestIndent, if_pos rfl,
      Nat.max_eq_right (by omega), ih, Nat.add_right_comm, Nat.add_assoc]

theorem blockMarks_mark (chomping : Chomping) (r : List Char) :
    blockMarks true (chomping.mark ++ '\n' :: r) =
      (⟨true, chomping, none⟩, chomping.mark.length) := by
  cases chomping <;> rfl

theorem blockMarks_digit (hn : 1 ≤ n) (hn' : n ≤ 9) (chomping : Chomping) (r : List Char) :
    blockMarks true (Decimal.digit n :: (chomping.mark ++ '\n' :: r)) =
      (⟨true, chomping, some n⟩, chomping.mark.length + 1) := by
  have digit : ∀ m : Fin 9, Decimal.digit (m + 1) ≠ '+' ∧ Decimal.digit (m + 1) ≠ '-' ∧
      ('1' ≤ Decimal.digit (m + 1) && Decimal.digit (m + 1) ≤ '9') = true ∧
      Decimal.digitValue (Decimal.digit (m + 1)) = m + 1 := by decide
  obtain ⟨m, rfl⟩ : ∃ m : Fin 9, n = m + 1 := ⟨⟨n - 1, by omega⟩, by simp; omega⟩
  obtain ⟨hp, hm, hd, hv⟩ := digit m
  generalize Decimal.digit (m + 1) = d at *
  cases chomping <;> simp only [Chomping.mark, List.nil_append, List.cons_append] <;>
    rw [blockMarks] <;> simp_all

/-- A block is read from the characters behind its bar. -/
theorem block_of_spelled (h : BlockSpelled cs ds) (hr : Resumes r) (line : Nat) :
    ∃ line', block true 1 line (ds ++ r) = some (cs, ⟨r, 0, line', true⟩) := by
  obtain @⟨lines, indentMark, chomping, breaks, written, n, hb, hk, hi, he⟩ := h
  have header : restOfHeader false ('\n' :: (indented n true lines ++ (written ++ r))) =
      some (indented n true lines ++ (written ++ r)) := rfl
  cases hi with
  | digit hn hn' =>
    obtain ⟨line', hs⟩ := blockLines_of_ending (h := ⟨true, chomping, some n⟩) (n := n)
      rfl hn hb hk he hr (line + 1)
    refine ⟨line', ?_⟩
    simp only [List.append_assoc, List.cons_append, List.nil_append, block]
    rw [blockMarks_digit hn hn']
    simp [header, hs]
  | @shown c cs hn hbl hbr =>
    obtain ⟨line', hs⟩ := blockLines_of_ending (h := ⟨true, chomping, none⟩) (n := n)
      rfl hn hb hk he hr (line + 1)
    refine ⟨line', ?_⟩
    have widest : widestIndent 0 0 (indented n true (c :: cs) ++ (written ++ r)) = some n := by
      rw [indented, if_neg (by simp [hbr]), if_pos rfl, List.append_assoc, List.cons_append,
        widestIndent_replicate hbl hbr, Nat.zero_add]
    have indent : max n 1 = n := by omega
    simp only [List.append_assoc, List.cons_append, List.nil_append, block]
    rw [blockMarks_mark]
    simp [header, hs, widest, indent]

end Blocks

end ReadableTrace.Yaml
