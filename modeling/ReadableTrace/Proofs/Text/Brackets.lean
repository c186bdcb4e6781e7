import Mathlib.Data.List.Infix

/-!
# Texts with brackets

A text is balanced if its angle and its square brackets are closed in turn (`Balanced`). To find
where a part of a text ends it is enough to count: `depth` is how many brackets a text opens and
does not close. A balanced text has depth zero, and no beginning of it has less
(`Balanced.depth_eq_zero`, `Balanced.depth_nonneg`).

So an opening bracket between two balanced texts stands at the only such place in the whole
(`eq_of_append_enclosed_eq`). A `Piece` is a balanced text that can stand between commas: it is not
empty, and its own commas are inside brackets. Pieces with commas between them can be told from the
whole (`eq_of_intercalate_eq`).
-/

namespace ReadableTrace.Text

/-! ## Balanced texts -/

/-- The brackets that open, each with the one that closes it. -/
def brackets : List (Char × Char) := [('<', '>'), ('[', ']')]

/-- Texts in which brackets of both kinds are closed in turn. -/
inductive Balanced : List Char → Prop
  | nil : Balanced []
  /-- A character that is no bracket may stand anywhere. -/
  | plain {d s} : (∀ b ∈ brackets, d ≠ b.1 ∧ d ≠ b.2) → Balanced s → Balanced (d :: s)
  | enclosed {b inner s} : b ∈ brackets → Balanced inner → Balanced s →
    Balanced (b.1 :: (inner ++ b.2 :: s))

/-- What a character adds to the depth. -/
def weight (d : Char) : Int := if d ∈ ['<', '['] then 1 else if d ∈ ['>', ']'] then -1 else 0

/-- How many brackets a text opens and does not close. -/
def depth : List Char → Int
  | [] => 0
  | d :: s => weight d + depth s

variable {s s' p a a' inner : List Char} {c d : Char} {b : Char × Char} {ss us : List (List Char)}

@[simp] theorem depth_nil : depth [] = 0 := rfl

@[simp] theorem depth_cons : depth (d :: s) = weight d + depth s := rfl

@[simp] theorem depth_append : depth (s ++ s') = depth s + depth s' := by
  induction s with
  | nil => rw [List.nil_append, depth_nil, Int.zero_add]
  | cons d s ih => rw [List.cons_append, depth_cons, depth_cons, ih, Int.add_assoc]

theorem weight_of_mem (h : b ∈ brackets) : weight b.1 = 1 ∧ weight b.2 = -1 := by
  have all : ∀ b ∈ brackets, weight b.1 = 1 ∧ weight b.2 = -1 := by decide
  exact all b h

theorem weight_eq_zero (h : ∀ b ∈ brackets, d ≠ b.1 ∧ d ≠ b.2) : weight d = 0 := by
  simp only [brackets, List.forall_mem_cons] at h
  simp [weight, h]

theorem Balanced.of_plain (h : ∀ d ∈ s, ∀ b ∈ brackets, d ≠ b.1 ∧ d ≠ b.2) : Balanced s := by
  induction s with
  | nil => exact .nil
  | cons d s ih =>
    rw [List.forall_mem_cons] at h
    exact .plain h.1 (ih h.2)

theorem Balanced.append (h : Balanced s) (h' : Balanced s') : Balanced (s ++ s') := by
  induction h with
  | nil => exact h'
  | plain hd _ ih => exact .plain hd ih
  | enclosed hb hi _ _ ih => simpa using Balanced.enclosed hb hi ih

/-- Balanced texts with balanced texts between them. -/
theorem Balanced.intercalate (h : Balanced s) (hs : ∀ u ∈ ss, Balanced u) :
    Balanced (s.intercalate ss) := by
  induction ss with
  | nil => exact .nil
  | cons u us ih =>
    rw [List.forall_mem_cons] at hs
    cases us with
    | nil => simpa using hs.1
    | cons v us =>
      rw [List.intercalate_cons_cons]
      exact (hs.1.append h).append (ih hs.2)

/-! ## Depth -/

theorem Balanced.depth_eq_zero (h : Balanced s) : depth s = 0 := by
  induction h with
  | nil => rfl
  | plain hd _ ih => rw [depth_cons, weight_eq_zero hd, ih, Int.add_zero]
  | enclosed hb _ _ ihi ih =>
    obtain ⟨ho, hc⟩ := weight_of_mem hb
    simp [ho, hc, ihi, ih]

/-- A beginning of two texts in a row ends in the first or in the second. -/
theorem prefix_append_cases (h : p <+: s ++ s') : p <+: s ∨ ∃ q, p = s ++ q ∧ q <+: s' := by
  obtain ⟨r, hr⟩ := h
  rcases List.append_eq_append_iff.1 hr with ⟨q, hs, -⟩ | ⟨q, hp, hs'⟩
  · exact .inl ⟨q, hs.symm⟩
  · exact .inr ⟨q, hp, r, hs'.symm⟩

/-- No beginning of a balanced text closes more than it opens. -/
theorem Balanced.depth_nonneg (h : Balanced s) (hp : p <+: s) : 0 ≤ depth p := by
  induction h generalizing p with
  | nil => exact List.prefix_nil.1 hp ▸ Int.le_refl 0
  | plain hd _ ih =>
    rcases List.prefix_cons_iff.1 hp with rfl | ⟨q, rfl, hq⟩
    · exact Int.le_refl 0
    · rw [depth_cons, weight_eq_zero hd, Int.zero_add]
      exact ih hq
  | enclosed hb hi _ ihi ih =>
    obtain ⟨ho, hc⟩ := weight_of_mem hb
    rcases List.prefix_cons_iff.1 hp with rfl | ⟨q, rfl, hq⟩
    · exact Int.le_refl 0
    rw [depth_cons, ho]
    -- the beginning ends inside the brackets, or behind them with what they enclose at depth zero
    rcases prefix_append_cases hq with hq | ⟨r, rfl, hr⟩
    · have := ihi hq
      omega
    · rw [depth_append, hi.depth_eq_zero]
      rcases List.prefix_cons_iff.1 hr with rfl | ⟨t, rfl, ht⟩
      · simp
      · have := ih ht
        rw [depth_cons, hc]
        omega

/-! ## Places in a text -/

/-- Two places of the same character in a text are the same place, or one stands in front of the
other. -/
theorem append_cons_eq_cases (h : s ++ c :: a = s' ++ c :: a') :
    (s = s' ∧ a = a') ∨ (∃ x, s' = s ++ c :: x ∧ a = x ++ c :: a') ∨
      ∃ x, s = s' ++ c :: x ∧ a' = x ++ c :: a := by
  rcases List.append_eq_append_iff.1 h with ⟨_ | ⟨d, x⟩, hs, ha⟩ | ⟨_ | ⟨d, x⟩, hs, ha⟩
  · exact .inl ⟨by simpa using hs.symm, by simpa using ha⟩
  · obtain ⟨rfl, rfl⟩ := List.cons.inj ha
    exact .inr (.inl ⟨x, hs, rfl⟩)
  · exact .inl ⟨by simpa using hs, by simpa using ha.symm⟩
  · obtain ⟨rfl, rfl⟩ := List.cons.inj ha
    exact .inr (.inr ⟨x, hs, rfl⟩)

/-- No opening bracket stands in a balanced text with a balanced text in front of it, if what
follows begins a balanced text: the bracket would not be closed. -/
theorem Balanced.ne_append_open (hb : b ∈ brackets) (hs : Balanced s) (ha : Balanced a)
    (hp : p <+: a) : ¬ Balanced (s ++ b.1 :: p) := by
  intro h
  have whole := h.depth_eq_zero
  have inner := ha.depth_nonneg hp
  rw [depth_append, depth_cons, hs.depth_eq_zero, (weight_of_mem hb).1] at whole
  omega

/-- A balanced text with brackets behind it can be taken apart in one way only. -/
theorem eq_of_append_enclosed_eq (hb : b ∈ brackets) (hs : Balanced s) (hs' : Balanced s')
    (ha : Balanced a) (ha' : Balanced a')
    (h : s ++ b.1 :: (a ++ [b.2]) = s' ++ b.1 :: (a' ++ [b.2])) : s = s' ∧ a = a' := by
  have open_eq : s ++ b.1 :: a = s' ++ b.1 :: a' := by
    simpa only [← List.cons_append, ← List.append_assoc, List.append_cancel_right_eq] using h
  rcases append_cons_eq_cases open_eq with h | ⟨x, rfl, rfl⟩ | ⟨x, rfl, rfl⟩
  · exact h
  · exact absurd hs' (hs.ne_append_open hb ha (List.prefix_append x _))
  · exact absurd hs (hs'.ne_append_open hb ha' (List.prefix_append x _))

/-! ## Pieces between commas -/

/-- Every comma of the text is inside brackets. -/
def Unsplit (s : List Char) : Prop := ∀ p r, s = p ++ ',' :: r → 0 < depth p

/-- A text that can stand between commas. -/
structure Piece (s : List Char) : Prop where
  ne_nil : s ≠ []
  balanced : Balanced s
  unsplit : Unsplit s

theorem Unsplit.of_not_mem (h : ',' ∉ s) : Unsplit s := by
  rintro p r rfl
  simp at h

theorem Unsplit.append (h : Unsplit s) (hs : Balanced s) (h' : Unsplit s') :
    Unsplit (s ++ s') := by
  intro p r hp
  rcases List.append_eq_append_iff.1 hp with ⟨q, rfl, hq⟩ | ⟨_ | ⟨d, q⟩, rfl, hq⟩
  · rw [depth_append, hs.depth_eq_zero, Int.zero_add]
    exact h' q r hq
  · exact absurd (h' [] r hq.symm) (by simp)
  · obtain ⟨rfl, rfl⟩ := List.cons.inj hq
    exact h p q rfl

/-- Within brackets commas may stand anywhere. -/
theorem Unsplit.enclosed (hb : b ∈ brackets) (h : Balanced inner) :
    Unsplit (b.1 :: (inner ++ [b.2])) := by
  obtain ⟨ho, -⟩ := weight_of_mem hb
  intro p r hp
  rcases p with _ | ⟨d, p⟩
  · rw [(List.cons.inj hp).1] at ho
    exact absurd ho (by decide)
  obtain ⟨rfl, hq⟩ := List.cons.inj hp
  have inside : 0 ≤ depth p := by
    rcases List.append_eq_append_iff.1 hq with ⟨_ | ⟨d, q⟩, rfl, he⟩ | ⟨q, rfl, -⟩
    · simp [h.depth_eq_zero]
    · simp at he
    · exact h.depth_nonneg (List.prefix_append p q)
  rw [depth_cons, ho]
  omega

theorem Piece.of_plain (hn : s ≠ []) (hc : ',' ∉ s)
    (h : ∀ d ∈ s, ∀ b ∈ brackets, d ≠ b.1 ∧ d ≠ b.2) : Piece s :=
  ⟨hn, .of_plain h, .of_not_mem hc⟩

/-- A piece may be followed by one. -/
theorem Piece.append (h : Piece s) (h' : Piece s') : Piece (s ++ s') where
  ne_nil := List.append_ne_nil_of_left_ne_nil h.ne_nil s'
  balanced := h.balanced.append h'.balanced
  unsplit := h.unsplit.append h.balanced h'.unsplit

theorem Piece.enclosed (hb : b ∈ brackets) (hi : Balanced inner) :
    Piece (b.1 :: (inner ++ [b.2])) where
  ne_nil := List.cons_ne_nil _ _
  balanced := .enclosed hb hi .nil
  unsplit := .enclosed hb hi

/-- Pieces with commas and blanks between them. -/
theorem balanced_of_pieces (h : ∀ s ∈ ss, Piece s) : Balanced ([',', ' '].intercalate ss) :=
  .intercalate (.of_plain (by simp [brackets])) fun s hs => (h s hs).balanced

/-- A piece does not go on behind a comma that ends a piece. -/
theorem Piece.ne_append_comma (h : Piece s) (h' : Piece s') : s' ≠ s ++ ',' :: a := by
  intro ha
  have inside := h'.unsplit s a ha
  rw [h.balanced.depth_eq_zero] at inside
  exact Int.lt_irrefl 0 inside

/-- A comma behind a piece is where the piece ends. -/
theorem eq_of_append_comma_eq (hs : Piece s) (hs' : Piece s')
    (h : s ++ ',' :: a = s' ++ ',' :: a') : s = s' ∧ a = a' := by
  rcases append_cons_eq_cases h with h | ⟨x, hx, -⟩ | ⟨x, hx, -⟩
  · exact h
  · exact absurd hx (hs.ne_append_comma hs')
  · exact absurd hx (hs'.ne_append_comma hs)

theorem intercalate_cons_cons_eq :
    [',', ' '].intercalate (s :: s' :: ss) =
      s ++ ',' :: ' ' :: [',', ' '].intercalate (s' :: ss) := by
  simp [List.intercalate_cons_cons]

theorem intercalate_cons_ne_nil (h : Piece s) : [',', ' '].intercalate (s :: ss) ≠ [] := by
  cases ss with
  | nil => simpa using h.ne_nil
  | cons s' ss => simp

/-- Pieces can be told from their text with commas and blanks between them. -/
theorem eq_of_intercalate_eq (hs : ∀ s ∈ ss, Piece s) (hu : ∀ u ∈ us, Piece u)
    (h : [',', ' '].intercalate ss = [',', ' '].intercalate us) : ss = us := by
  induction ss generalizing us with
  | nil =>
    cases us with
    | nil => rfl
    | cons u us => exact absurd h.symm (intercalate_cons_ne_nil (hu u List.mem_cons_self))
  | cons s ss ih =>
    rw [List.forall_mem_cons] at hs
    cases us with
    | nil => exact absurd h (intercalate_cons_ne_nil hs.1)
    | cons u us =>
      rw [List.forall_mem_cons] at hu
      -- a single piece is not longer than the first of several
      rcases ss with _ | ⟨s', ss⟩ <;> rcases us with _ | ⟨u', us⟩
      · simpa using h
      · rw [List.intercalate_singleton, intercalate_cons_cons_eq] at h
        exact absurd h (hu.1.ne_append_comma hs.1)
      · rw [List.intercalate_singleton, intercalate_cons_cons_eq] at h
        exact absurd h.symm (hs.1.ne_append_comma hu.1)
      · rw [intercalate_cons_cons_eq, intercalate_cons_cons_eq] at h
        obtain ⟨rfl, hr⟩ := eq_of_append_comma_eq hs.1 hu.1 h
        rw [ih hs.2 hu.2 (List.cons.inj hr).2]

end ReadableTrace.Text
