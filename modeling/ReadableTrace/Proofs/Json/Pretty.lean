import ReadableTrace.Proofs.Json.Written

/-!
# Pretty JSON is written JSON

`Json.pretty` spells every value whose texts are whole and whose numbers count something
(`written_print`): line breaks and indentation are blanks between the parts. So such a value is read
back from its pretty text (`ofText?_pretty_of_isPlain`).
-/

namespace ReadableTrace.Json

mutual

/-- Whether every text is whole and every number is a natural one, without point and exponent. -/
def isPlain : Json → Bool
  | .text s => s.isSome
  | .number n => n.toNat?.isSome
  | .list items => arePlain items
  | .object members => membersArePlain members
  | _ => true

/-- Whether all of some values are plain. -/
def arePlain : List Json → Bool
  | [] => true
  | v :: rest => isPlain v && arePlain rest

/-- Whether all keys and values of some members are plain. -/
def membersArePlain : List (Option String × Json) → Bool
  | [] => true
  | (k, v) :: rest => k.isSome && isPlain v && membersArePlain rest

end

@[simp] theorem isPlain_ofNat (n : Nat) : (ofNat n).isPlain = true := rfl

@[simp] theorem isPlain_ofString (s : String) : (ofString s).isPlain = true := rfl

@[simp] theorem isPlain_ofMembers {ms : List (String × Json)} :
    (ofMembers ms).isPlain = true ↔ ∀ m ∈ ms, m.2.isPlain = true := by
  change membersArePlain (ms.map fun m => (some m.1, m.2)) = true ↔ _
  induction ms with
  | nil => simp [membersArePlain]
  | cons m ms ih => simp [membersArePlain, ih]

@[simp] theorem isPlain_list {vs : List Json} :
    (list vs).isPlain = true ↔ ∀ v ∈ vs, v.isPlain = true := by
  rw [isPlain]
  induction vs with
  | nil => simp [arePlain]
  | cons v vs ih => simp [arePlain, ih]

theorem exists_ofNat_of_isPlain {n : Number} (h : isPlain (.number n) = true) :
    ∃ k, n = .ofNat k := by
  obtain ⟨isNegative, whole, fraction, exponent⟩ := n
  simp only [isPlain, Number.toNat?, Option.isSome_ite', Bool.not_eq_true, Bool.or_eq_false_iff,
    Bool.not_eq_false', List.isEmpty_iff, Option.isSome_eq_false_iff,
    Option.isNone_iff_eq_none] at h
  obtain ⟨⟨rfl, rfl⟩, rfl⟩ := h
  exact ⟨whole, rfl⟩

/-! ## Layout -/

theorem blanks_nil : Blanks [] := by
  intro c hc
  cases hc

theorem blanks_newline (level : Nat) : Blanks (newline level) := by
  intro c hc
  rcases List.mem_cons.1 hc with rfl | hc
  · rfl
  · rw [(List.mem_replicate.1 hc).2]
    rfl

theorem printNumber_ofNat (n : Nat) : printNumber (.ofNat n) = Decimal.digits n := by
  simp [printNumber, Number.ofNat]

variable {level : Nat}

/-- Items on lines of their own, behind any blanks and in front of any. -/
theorem writtenItems_print {v : Json} {vs : List Json} {b b' : List Char}
    (h : ∀ w ∈ v :: vs, Written w (print level w)) (hb : Blanks b) (hb' : Blanks b') :
    WrittenItems (v :: vs) (b ++ print level v ++ (printItems level vs ++ b')) := by
  induction vs generalizing v b with
  | nil => exact .last hb (h v (by simp)) hb'
  | cons w vs ih =>
    have hi := ih (fun x hx => h x (List.mem_cons_of_mem v hx)) (blanks_newline level)
    have := WrittenItems.cons hb (h v (by simp)) blanks_nil hi
    simpa [printItems] using this

theorem writtenMember_print {m : Option String × Json} {b b' : List Char}
    (h : m.1.isSome = true ∧ Written m.2 (print level m.2)) (hb : Blanks b) (hb' : Blanks b') :
    WrittenMember m (b ++ quote (m.1.getD "") ++ [':', ' '] ++ print level m.2 ++ b') := by
  have blank : Blanks [' '] := by simp [Blanks, isBlank]
  obtain ⟨k, v⟩ := m
  obtain ⟨k, rfl⟩ := Option.isSome_iff_exists.1 h.1
  simpa using WrittenMember.mk k hb blanks_nil blank h.2 hb'

/-- Members on lines of their own, behind any blanks and in front of any. -/
theorem writtenMembers_print {m : Option String × Json} {ms : List (Option String × Json)}
    {b b' : List Char} (h : ∀ n ∈ m :: ms, n.1.isSome = true ∧ Written n.2 (print level n.2))
    (hb : Blanks b) (hb' : Blanks b') :
    WrittenMembers (m :: ms) (b ++ quote (m.1.getD "") ++ [':', ' '] ++ print level m.2
      ++ (printMembers level ms ++ b')) := by
  induction ms generalizing m b with
  | nil => exact .last (writtenMember_print (h m (by simp)) hb hb')
  | cons n ms ih =>
    have hm := ih (fun x hx => h x (List.mem_cons_of_mem m hx)) (blanks_newline level)
    have := WrittenMembers.cons (writtenMember_print (h m (by simp)) hb blanks_nil) hm
    simpa [printMembers] using this

/-! ## Values -/

mutual

/-- A plain value is spelled by its pretty text. -/
theorem written_print : ∀ v : Json, v.isPlain = true → ∀ level, Written v (print level v)
  | .null, _, _ => .nullWord
  | .bool true, _, _ => .trueWord
  | .bool false, _, _ => .falseWord
  | .number n, h, level => by
    obtain ⟨k, rfl⟩ := exists_ofNat_of_isPlain h
    rw [print, printNumber_ofNat]
    exact .number k
  | .text (some s), _, _ => .text s
  | .list vs, h, level => by
    have hi := written_print_items vs h (level + 1)
    cases vs with
    | nil => exact .emptyList blanks_nil
    | cons v vs =>
      have hw := writtenItems_print hi (blanks_newline (level + 1)) (blanks_newline level)
      simpa [print] using Written.list hw
  | .object ms, h, level => by
    have hm := written_print_members ms h (level + 1)
    cases ms with
    | nil => exact .emptyObject blanks_nil
    | cons m ms =>
      have hw := writtenMembers_print hm (blanks_newline (level + 1)) (blanks_newline level)
      simpa [print] using Written.object hw

theorem written_print_items : ∀ vs : List Json, arePlain vs = true → ∀ level, ∀ v ∈ vs,
    Written v (print level v)
  | [], _, _ => by simp
  | v :: vs, h, level => by
    simp only [arePlain, Bool.and_eq_true] at h
    exact List.forall_mem_cons.2 ⟨written_print v h.1 level, written_print_items vs h.2 level⟩

theorem written_print_members : ∀ ms : List (Option String × Json), membersArePlain ms = true →
    ∀ level, ∀ m ∈ ms, m.1.isSome = true ∧ Written m.2 (print level m.2)
  | [], _, _ => by simp
  | (k, v) :: ms, h, level => by
    simp only [membersArePlain, Bool.and_eq_true] at h
    exact List.forall_mem_cons.2
      ⟨⟨h.1.1, written_print v h.1.2 level⟩, written_print_members ms h.2 level⟩

end

/-- A plain value is read back from its pretty text. -/
theorem ofText?_pretty_of_isPlain {v : Json} (h : v.isPlain = true) :
    ofText? v.pretty = some v := by
  have := ofChars?_of_written blanks_nil (written_print v h 0) blanks_nil
  simpa [ofText?, pretty] using this

end ReadableTrace.Json
