import ReadableTrace.Proofs.Yaml.Scalar
import ReadableTrace.Yaml.Node.Reader

/-!
# Mappings with a key on each line

A document that has a key with a scalar on each line, every one spelled in any way that a text can
be written, is read as the mapping of these keys to these scalars (`Node.ofText?_of_entries`). The
lexer takes three steps for each line: the key, which only the colon shows to be one, the colon,
and the scalar with the end of the line.
-/

namespace ReadableTrace.Yaml

/-- A line with a key and a scalar. -/
structure Entry where
  key : List Char
  form : Form
  text : List Char
  /-- How the scalar is written, from behind the colon on. -/
  written : List Char

namespace Entry

/-- What is written. -/
def chars (e : Entry) : List Char := e.key ++ ':' :: e.written

/-- The tokens of an entry. -/
def tokens (e : Entry) : List Token :=
  [.key, .scalar .plain (String.ofList e.key), .value, .scalar e.form (String.ofList e.text)]

/-- The key and the scalar of an entry. -/
def nodes (e : Entry) : Node × Node :=
  (.scalar .none .plain (String.ofList e.key), .scalar .none e.form (String.ofList e.text))

/-- How many bytes a key takes up. -/
def keySize (e : Entry) : Nat := e.key.foldl (fun size c => size + c.utf8Size) 0

/-- The key is a short word and the scalar stands for the text. -/
structure IsSpelled (e : Entry) : Prop where
  ne_nil : e.key ≠ []
  isKey : ∀ c ∈ e.key, isKeyChar c = true
  size_le : e.keySize ≤ Lexer.maxKeySize
  spelled : Spelled e.form e.text e.written

end Entry

/-- Another key begins here, or nothing is left. -/
def BeginsKey (r : List Char) : Prop := ∀ c ∈ r.head?, isKeyChar c = true

theorem BeginsKey.resumes {r : List Char} (h : BeginsKey r) : Resumes r :=
  fun c hc => ⟨isBlank_of_isKeyChar (h c hc), isBreak_of_isKeyChar (h c hc)⟩

/-! ## Steps of the lexer -/

variable {c : Char} {r : List Char} {column line : Nat}

namespace Cursor

/-- Nothing is passed over in front of a character that is no blank and begins no comment. -/
theorem skip_cons {keyAllowed : Bool} (hb : isBlank c = false) (hk : isBreak c = false)
    (hh : c ≠ '#') (hc : 0 < column ∨ c ≠ byteOrderMark) :
    skip false false column line keyAllowed (c :: r) = ⟨c :: r, column, line, keyAllowed⟩ := by
  have blank : c ≠ ' ' ∧ c ≠ '\t' := by simpa [isBlank] using hb
  have mark : ¬ (c = byteOrderMark ∧ column = 0) := by
    rintro ⟨rfl, rfl⟩
    simp at hc
  simp [skip, hk, blank, mark, hh]

theorem skip_of_beginsKey {keyAllowed : Bool} (h : BeginsKey r) :
    skip false false column line keyAllowed r = ⟨r, column, line, keyAllowed⟩ := by
  rcases r with _ | ⟨c, r⟩
  · rfl
  · have hc := h c rfl
    refine skip_cons (isBlank_of_isKeyChar hc) (isBreak_of_isKeyChar hc) ?_ (.inr ?_)
    all_goals
      rintro rfl
      cases hc

end Cursor

namespace Lexer

variable {T : List Token} {columns : List Nat} {count fuel : Nat}

/-- One step of the lexer. -/
theorem run_of_next {s s'' : Lexer} (s' : Lexer) (skipped : { s with
      cursor := s.cursor.toToken s.inFlow }.dropStaleKey = some s')
    (left : s'.cursor.rest ≠ []) (next : s'.closeBehind.next = some s'') :
    run (fuel + 1) s = run fuel s'' := by
  simp [run, skipped, left, next]

/-- No list or mapping ends in or behind the column where the outermost one begins. -/
theorem closeBehind_of_outer {s : Lexer} (h : s.columns = [] ∨ s.columns = [0]) :
    s.closeBehind = s := by
  obtain ⟨cursor, columns, keyStart, outer, names, tokens, count⟩ := s
  rcases h with rfl | rfl <;> simp [closeBehind, close]

theorem startsPlain_append_newline {cs : List Char} (h : startsPlain false cs = true)
    (r : List Char) : startsPlain false (cs ++ '\n' :: r) = true := by
  cases cs with
  | nil => cases h
  | cons c cs => simpa [startsPlain, atBlank_append_newline] using h

/-- A plain scalar begins with no blank, line break or hash. -/
theorem startsPlain_cons (h : startsPlain false (c :: r) = true) :
    isBlank c = false ∧ isBreak c = false ∧ c ≠ '#' := by
  by_cases hi : isIndicator c = true
  · have few : c = '-' ∨ c = '?' ∨ c = ':' := by
      simp only [startsPlain, hi, if_true, Bool.or_eq_true, Bool.and_eq_true, decide_eq_true_eq]
        at h
      exact h.imp And.left fun h => h.1.2
    rcases few with rfl | rfl | rfl <;> decide
  · simp only [startsPlain, hi, Bool.false_eq_true, if_false, Bool.not_eq_true',
      Bool.or_eq_false_iff] at h
    refine ⟨h.1, h.2, ?_⟩
    rintro rfl
    exact hi (by decide)

/-- What begins like a plain scalar is a scalar. -/
theorem next_of_startsPlain {s : Lexer} (hf : s.inFlow = false)
    (hs : startsPlain false s.cursor.rest = true) (hm : s.cursor.isAtMarker = false) :
    s.next = s.lineScalar := by
  have notMark {d : Char} {r : List Char} (hi : isIndicator d = true)
      (hd : d ≠ '-' ∧ d ≠ '?' ∧ d ≠ ':') (hr : s.cursor.rest = d :: r) : False := by
    rw [hr] at hs
    simp [startsPlain, hi, hd] at hs
  rw [next, hm, if_neg Bool.false_ne_true]
  split
  case h_12 r hr =>
    rw [hr] at hs
    have : atBlank r = false := by simpa [startsPlain, isIndicator] using hs
    rw [this]
    rfl
  case h_13 r hr =>
    rw [hr] at hs
    have : atBlank r = false := by simpa [startsPlain, isIndicator] using hs
    rw [isAlone, hf, this]
    rfl
  case h_14 r hr =>
    rw [hr] at hs
    have : atBlank r = false := by simpa [startsPlain, isIndicator] using hs
    rw [isAlone, hf, this]
    rfl
  case h_15 => rfl
  all_goals
    rename_i hr
    exact absurd hr fun hr => notMark (by decide) (by decide) hr

theorem not_atMarker (hc : isIndicator c = false) (hd : c ≠ '.') : atMarker (c :: r) = false := by
  unfold atMarker
  split
  · rename_i h
    obtain ⟨rfl, -⟩ := List.cons.inj h
    cases hc
  · rename_i h
    exact absurd (List.cons.inj h).1 hd
  · rfl

/-- A scalar that begins like a plain one is read as one. -/
theorem lineScalar_of_startsPlain {s s' : Lexer} (hm : s.markKey = some s')
    (hs : startsPlain s'.inFlow s'.cursor.rest = true) :
    s.lineScalar = s'.scalar .plain (plain s'.inFlow s'.least s'.cursor.column s'.cursor.line .none
      s'.cursor.rest) := by
  rw [lineScalar, hm]
  simp only [Option.bind_eq_bind, Option.bind_some]
  split
  · rename_i h
    rw [h] at hs
    simp [startsPlain, show isIndicator '"' = true by decide] at hs
  · rename_i h
    rw [h] at hs
    simp [startsPlain, show isIndicator '\'' = true by decide] at hs
  · rw [if_pos hs]

/-- The lexer takes off a key. -/
theorem run_key {key : List Char} (hk : ∀ c ∈ key, isKeyChar c = true) (hn : key ≠ [])
    (hs : columns = [] ∨ columns = [0]) {cursor : Cursor}
    (hc : cursor.toToken false = ⟨key ++ ':' :: ' ' :: r, 0, line, true⟩) :
    run (fuel + 1) ⟨cursor, columns, none, [], [], T, count⟩ =
      run fuel ⟨⟨':' :: ' ' :: r, key.length, line, false⟩, columns,
        some ⟨⟨key ++ ':' :: ' ' :: r, 0, line, true⟩, count, columns.head? = some 0⟩, [], [],
        .scalar .plain (String.ofList key) :: T, count + 1⟩ := by
  obtain ⟨c, cs, rfl⟩ := List.exists_cons_of_ne_nil hn
  have hkc := hk c List.mem_cons_self
  have hi := isIndicator_of_isKeyChar hkc
  have noDot : c ≠ '.' := by
    rintro rfl
    cases hkc
  have starts : startsPlain false (c :: cs ++ ':' :: ' ' :: r) = true := by
    simp [startsPlain, hi, isBlank_of_isKeyChar hkc, isBreak_of_isKeyChar hkc]
  have marked : markKey ⟨⟨c :: cs ++ ':' :: ' ' :: r, 0, line, true⟩, columns, none, [], [], T,
      count⟩ = some ⟨⟨c :: cs ++ ':' :: ' ' :: r, 0, line, true⟩, columns,
        some ⟨⟨c :: cs ++ ':' :: ' ' :: r, 0, line, true⟩, count, columns.head? = some 0⟩, [], [],
        T, count⟩ := by
    simp [markKey, dropKey, inFlow]
  refine run_of_next ⟨⟨c :: cs ++ ':' :: ' ' :: r, 0, line, true⟩, columns, none, [], [], T,
    count⟩ ?_ (by simp) ?_
  · simp [inFlow, hc, dropStaleKey]
  · rw [closeBehind_of_outer hs, next_of_startsPlain rfl starts (by
      simp [Cursor.isAtMarker, not_atMarker hi noDot]), lineScalar_of_startsPlain marked starts,
      inFlow, List.isEmpty_nil, Bool.not_true, plain_key hk]
    simp [scalar, emit]

/-- The lexer takes off the colon of a key, and so finds that it is one. -/
theorem run_colon {key : List Char} (hn : key ≠ []) (hs : columns = [] ∨ columns = [0])
    (hz : key.foldl (fun size c => size + c.utf8Size) 0 ≤ maxKeySize) {required : Bool} :
    run (fuel + 1) ⟨⟨':' :: ' ' :: r, key.length, line, false⟩, columns,
        some ⟨⟨key ++ ':' :: ' ' :: r, 0, line, true⟩, count, required⟩, [], [],
        .scalar .plain (String.ofList key) :: T, count + 1⟩ =
      run fuel ⟨⟨' ' :: r, key.length + 1, line, false⟩, [0], none, [], [],
        .value :: .scalar .plain (String.ofList key) :: .key ::
          (if columns = [] then [.mappingStart] else []) ++ T,
        if columns = [] then count + 4 else count + 3⟩ := by
  have stays : Cursor.toToken ⟨':' :: ' ' :: r, key.length, line, false⟩ false =
      ⟨':' :: ' ' :: r, key.length, line, false⟩ :=
    Cursor.skip_cons (by decide) (by decide) (by decide) (.inr (by decide))
  have near : Cursor.bytesTo ⟨key ++ ':' :: ' ' :: r, 0, line, true⟩
      ⟨':' :: ' ' :: r, key.length, line, false⟩ ≤ maxKeySize := by
    simpa [Cursor.bytesTo] using hz
  have hl : key.length ≠ 0 := by simpa using hn
  refine run_of_next ⟨⟨':' :: ' ' :: r, key.length, line, false⟩, columns,
    some ⟨⟨key ++ ':' :: ' ' :: r, 0, line, true⟩, count, required⟩, [], [],
    .scalar .plain (String.ofList key) :: T, count + 1⟩ ?_ (by simp) ?_
  · simp [inFlow, stays, dropStaleKey, Nat.not_lt.2 near]
  · rw [closeBehind_of_outer hs]
    rcases hs with rfl | rfl
    · simp [next, Cursor.isAtMarker, hl, isAlone, inFlow, atBlank, isBlank, colon, insert,
        openBlock, least, emit, Cursor.advance]
    · simp [next, Cursor.isAtMarker, hl, isAlone, inFlow, atBlank, isBlank, colon, insert,
        openBlock, least, emit, Cursor.advance]

/-- The lexer takes off one scalar behind a colon. -/
theorem run_scalar {form : Form} {text rest : List Char} {next' : Cursor}
    (hk : ∃ d ds, rest = d :: ds ∧ isBlank d = false ∧ isBreak d = false ∧ d ≠ '#')
    (hn : next ⟨⟨rest, column + 1, line, false⟩, [0], none, [], [], T, count⟩ =
      some ⟨next', [0], none, [], [], .scalar form (String.ofList text) :: T, count + 1⟩) :
    run (fuel + 1) ⟨⟨' ' :: rest, column, line, false⟩, [0], none, [], [], T, count⟩ =
      run fuel ⟨next', [0], none, [], [], .scalar form (String.ofList text) :: T, count + 1⟩ := by
  obtain ⟨d, ds, rfl, hb, hbr, hh⟩ := hk
  have skipped : Cursor.toToken ⟨' ' :: d :: ds, column, line, false⟩ false =
      ⟨d :: ds, column + 1, line, false⟩ :=
    Cursor.skip_cons hb hbr hh (.inl (Nat.succ_pos column))
  refine run_of_next ⟨⟨d :: ds, column + 1, line, false⟩, [0], none, [], [], T, count⟩
    ?_ (by simp) ?_
  · simp [inFlow, skipped, dropStaleKey]
  · rw [closeBehind_of_outer (.inr rfl), hn]

theorem toToken_newline (hr : BeginsKey r) :
    Cursor.toToken ⟨'\n' :: r, column, line, false⟩ false = ⟨r, 0, line + 1, true⟩ :=
  Cursor.skip_of_beginsKey hr

/-- The lexer takes off the scalar behind a colon, however it is spelled, and comes to the next
line. -/
theorem run_spelled {form : Form} {text written : List Char} (h : Spelled form text written)
    (hr : BeginsKey r) (column line : Nat) (T : List Token) (count : Nat) : ∃ next' line',
      next'.toToken false = ⟨r, 0, line', true⟩ ∧
      ∀ fuel, run (fuel + 1) ⟨⟨written ++ r, column, line, false⟩, [0], none, [], [], T, count⟩ =
        run fuel ⟨next', [0], none, [], [], .scalar form (String.ofList text) :: T, count + 1⟩ := by
  cases h with
  | plain hp =>
    obtain ⟨starts, goesOn⟩ := hp
    have hs := plain_of_goesOnPlain (g := []) goesOn rfl (Nat.succ_pos column) Nat.one_pos
      hr.resumes line
    refine ⟨⟨r, 0, line + 1, true⟩, line + 1, Cursor.skip_of_beginsKey hr, fun fuel => ?_⟩
    rw [List.cons_append, List.append_assoc]
    have starts' := startsPlain_append_newline starts r
    refine run_scalar ?_ ?_
    · obtain ⟨c, cs, rfl⟩ : ∃ c cs, text = c :: cs := List.exists_cons_of_ne_nil (by
        rintro rfl
        cases starts)
      exact ⟨c, cs ++ '\n' :: r, by simp, startsPlain_cons starts⟩
    · rw [next_of_startsPlain rfl (by simpa using starts') (by simp [Cursor.isAtMarker]),
        lineScalar_of_startsPlain rfl (by simpa [inFlow] using starts')]
      simp only [inFlow, least, List.isEmpty_nil, Bool.not_true, Gap.none, scalar, emit,
        List.cons_append, List.nil_append, Nat.zero_add]
      rw [hs]
      rfl
  | @double _ ds hd =>
    obtain ⟨n, hs⟩ := doubleQuoted_of_spelled hd [] (Nat.succ_pos (column + 1)) line ('\n' :: r)
    refine ⟨⟨'\n' :: r, column + 1 + 1 + n, line, false⟩, line + 1, toToken_newline hr,
      fun fuel => ?_⟩
    rw [List.cons_append, List.cons_append, List.append_assoc]
    refine run_scalar ⟨_, _, rfl, by decide, by decide, by decide⟩ ?_
    simp [next, Cursor.isAtMarker, lineScalar, markKey, scalar, emit, Gap.none, hs]
  | @single _ ds hd =>
    obtain ⟨column', line', hs⟩ := singleQuoted_of_spelled (r := '\n' :: r) hd .none
      (column + 1 + 1) line (fun h => absurd rfl h) (fun _ _ _ => Nat.succ_pos _) (by simp)
    refine ⟨⟨'\n' :: r, column', line', false⟩, line' + 1, toToken_newline hr, fun fuel => ?_⟩
    rw [List.cons_append, List.cons_append, List.append_assoc]
    refine run_scalar ⟨_, _, rfl, by decide, by decide, by decide⟩ ?_
    simp [next, Cursor.isAtMarker, lineScalar, markKey, scalar, emit, hs]
    rfl
  | @block _ ds hb =>
    obtain ⟨line', hs⟩ := block_of_spelled hb hr.resumes line
    refine ⟨⟨r, 0, line', true⟩, line', Cursor.skip_of_beginsKey hr, fun fuel => ?_⟩
    rw [List.cons_append, List.cons_append]
    refine run_scalar ⟨_, _, rfl, by decide, by decide, by decide⟩ ?_
    simp [next, Cursor.isAtMarker, inFlow, blockScalar, dropKey, scalar, emit, least, hs]

/-- The lexer takes off one entry, whichever place it has. -/
theorem run_entry {e : Entry} (he : e.IsSpelled) (hr : BeginsKey r)
    (hs : columns = [] ∨ columns = [0]) {cursor : Cursor}
    (hc : cursor.toToken false = ⟨e.chars ++ r, 0, line, true⟩) (T : List Token) (count : Nat) :
    ∃ next' line' count', next'.toToken false = ⟨r, 0, line', true⟩ ∧
      ∀ fuel, run (fuel + 3) ⟨cursor, columns, none, [], [], T, count⟩ =
        run fuel ⟨next', [0], none, [], [], e.tokens.reverse ++
          (if columns = [] then [.mappingStart] else []) ++ T, count'⟩ := by
  obtain ⟨key, form, text, written⟩ := e
  obtain ⟨hn, hk, hz, hw⟩ := he
  obtain ⟨rest, rfl⟩ := hw.exists_cons
  simp only [Entry.chars, List.append_assoc, List.cons_append] at hc hn hk hz hw
  obtain ⟨next', line', hnext, hrun⟩ := run_spelled hw hr (key.length + 1) line
    (.value :: .scalar .plain (String.ofList key) :: .key ::
      (if columns = [] then [.mappingStart] else []) ++ T)
    (if columns = [] then count + 4 else count + 3)
  refine ⟨next', line', (if columns = [] then count + 4 else count + 3) + 1, hnext,
    fun fuel => ?_⟩
  rw [run_key hk hn hs hc, run_colon hn hs hz]
  exact hrun fuel

theorem beginsKey_entries {es : List Entry} (h : ∀ e ∈ es, e.IsSpelled) :
    BeginsKey (es.flatMap Entry.chars) := by
  rcases es with _ | ⟨e, es⟩
  · rintro _ ⟨⟩
  · obtain ⟨c, cs, hk⟩ := List.exists_cons_of_ne_nil (h e (by simp)).ne_nil
    rintro _ hc
    obtain rfl : c = _ := by simpa [Entry.chars, hk] using hc
    exact (h e (by simp)).isKey c (by simp [hk])

/-- The lexer takes off all entries behind the first. -/
theorem run_entries {es : List Entry} (h : ∀ e ∈ es, e.IsSpelled) {cursor : Cursor}
    (hc : cursor.toToken false = ⟨es.flatMap Entry.chars, 0, line, true⟩) :
    run (fuel + 3 * es.length + 1) ⟨cursor, [0], none, [], [], T, count⟩ =
      some (T.reverse ++ es.flatMap Entry.tokens ++ [.blockEnd]) := by
  induction es generalizing cursor line T count with
  | nil =>
    simp only [List.flatMap_nil] at hc
    simp [run, inFlow, hc, dropStaleKey, closeAll, close, dropKey]
  | cons e es ih =>
    rw [List.forall_mem_cons] at h
    rw [List.flatMap_cons] at hc
    obtain ⟨next', line', count', hnext, hrun⟩ :=
      run_entry h.1 (beginsKey_entries h.2) (.inr rfl) hc T count
    have steps : fuel + 3 * (e :: es).length + 1 = (fuel + 3 * es.length + 1) + 3 := by
      simp only [List.length_cons]
      omega
    rw [steps, hrun, ih h.2 hnext]
    simp

end Lexer

/-! ## Documents -/

section Documents

variable {es : List Entry}

theorem unifyBreaks_of_isAllowed {cs : List Char} (h : cs.all isAllowed = true) :
    unifyBreaks cs = cs := by
  have stays {c : Char} (hc : isAllowed c = true) : c ≠ '\r' ∧ c ≠ '\u0085' := by
    constructor <;> rintro rfl <;> cases hc
  induction cs with
  | nil => rfl
  | cons c cs ih =>
    rw [List.all_cons, Bool.and_eq_true] at h
    obtain ⟨hr, hn⟩ := stays h.1
    rw [unifyBreaks, ih h.2, if_neg (by simp [hr, hn])]
    rintro _ rfl
    exact absurd rfl hr

/-- The tokens of a document with a key on each line. -/
theorem Token.ofChars?_of_entries (h : ∀ e ∈ es, e.IsSpelled) (hn : es ≠ [])
    (ha : (es.flatMap Entry.chars).all isAllowed = true) :
    Token.ofChars? (es.flatMap Entry.chars) =
      some (.mappingStart :: (es.flatMap Entry.tokens ++ [.blockEnd])) := by
  obtain ⟨e, es, rfl⟩ := List.exists_cons_of_ne_nil hn
  have long (es : List Entry) (h : ∀ e ∈ es, e.IsSpelled) :
      3 * es.length ≤ (es.flatMap Entry.chars).length := by
    induction es with
    | nil => exact Nat.le_refl 0
    | cons e es ih =>
      rw [List.forall_mem_cons] at h
      have key := List.length_pos_iff.2 h.1.ne_nil
      obtain ⟨rest, hw⟩ := h.1.spelled.exists_cons
      have := ih h.2
      simp only [List.length_cons, List.flatMap_cons, List.length_append, Entry.chars, hw]
      omega
  obtain ⟨n, hlen⟩ := Nat.exists_eq_add_of_le' (long (e :: es) h)
  rw [Token.ofChars?, if_pos ha, hlen]
  rw [List.forall_mem_cons] at h
  have first : Cursor.toToken ⟨e.chars ++ es.flatMap Entry.chars, 0, 0, true⟩ false =
      ⟨e.chars ++ es.flatMap Entry.chars, 0, 0, true⟩ :=
    Cursor.skip_of_beginsKey (Lexer.beginsKey_entries (List.forall_mem_cons.2 h))
  obtain ⟨next', line', count', hnext, hrun⟩ := Lexer.run_entry h.1
    (Lexer.beginsKey_entries h.2) (.inl rfl) first [] 0
  have steps : n + 3 * (e :: es).length + 1 = (n + 3 * es.length + 1) + 3 := by
    simp only [List.length_cons]
    omega
  rw [steps, Lexer.start, List.flatMap_cons, hrun, Lexer.run_entries h.2 hnext]
  simp

namespace Node

theorem read_scalar {handles : Handles} {isBlock isEntry : Bool} {form : Form} {text : String}
    {r : List Token} (fuel : Nat) :
    read handles isBlock isEntry (fuel + 1) (.scalar form text :: r) =
      some (.scalar .none form text, r) := rfl

/-- The entries of a mapping are read from their tokens. -/
theorem readEntries_of_entries {handles : Handles} (es : List Entry) (fuel : Nat) (r : List Token) :
    readEntries handles (fuel + es.length + 1) (es.flatMap Entry.tokens ++ .blockEnd :: r) =
      some (es.map Entry.nodes, r) := by
  induction es with
  | nil => rfl
  | cons e es ih =>
    have steps : fuel + (e :: es).length + 1 = (fuel + es.length + 1) + 1 := rfl
    rw [steps, List.flatMap_cons, Entry.tokens]
    simp [readEntries, endsBlockPart, read_scalar, ih, Entry.nodes]

theorem read_mappingStart {handles : Handles} (fuel : Nat) (r : List Token) :
    read handles true false (fuel + 1) (.mappingStart :: r) =
      (readEntries handles fuel r).map fun p => (.mapping .none p.1, p.2) := by
  cases h : readEntries handles fuel r <;> simp [read, Marks.ofTokens?, h]

/-- A document with a key on each line is read as the mapping of the keys to the scalars. -/
theorem ofText?_of_entries {text : String} (ht : text.toList = es.flatMap Entry.chars)
    (h : ∀ e ∈ es, e.IsSpelled) (hn : es ≠ []) (ha : text.toList.all isAllowed = true) :
    ofText? text = some (some (.mapping .none (es.map Entry.nodes))) := by
  have tokens := Token.ofChars?_of_entries h hn (ht ▸ ha)
  have long : es.length ≤ (es.flatMap Entry.tokens).length := by
    clear ht h hn tokens
    induction es with
    | nil => exact Nat.le_refl 0
    | cons e es ih =>
      simp only [List.flatMap_cons, List.length_append, List.length_cons, Entry.tokens]
      omega
  obtain ⟨n, hlen⟩ := Nat.exists_eq_add_of_le' long
  have fuel : 2 * (Token.mappingStart :: (es.flatMap Entry.tokens ++ [.blockEnd])).length + 2 =
      (2 * n + es.length + 4 + es.length + 1) + 1 := by
    simp only [List.length_cons, List.length_append, hlen, List.length_nil]
    omega
  rw [ofText?, Token.ofText?, unifyBreaks_of_isAllowed ha, ht, tokens, Option.bind_some, ofTokens?,
    fuel]
  simp [readDocument, read_mappingStart, readEntries_of_entries]

end Node

end Documents

end ReadableTrace.Yaml
