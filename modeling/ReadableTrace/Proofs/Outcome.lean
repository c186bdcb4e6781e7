import Mathlib.Data.List.Forall2

/-!
# Outcomes in sequence

What it means for a computation in several steps to succeed or to fail. A sequence succeeds if
every step does, and fails with the failure of the first step that does not; for a step at each
member of a list these are `mapM_eq_ok_iff` and `mapM_eq_error_iff`. So a sequence keeps its value
if every step keeps its own, whatever becomes of failures (`Kept`). Putting failures in other terms
(`Except.mapError`) goes through all of them.
-/

namespace ReadableTrace.Outcome

variable {ε ε' α β : Type} {e : ε}

@[simp] theorem ok_bind {a : α} {f : α → Except ε β} : Except.ok a >>= f = f a := rfl

@[simp] theorem bind_eq_ok_iff {x : Except ε α} {f : α → Except ε β} {b : β} :
    x >>= f = .ok b ↔ ∃ a, x = .ok a ∧ f a = .ok b := by
  cases x with
  | error e => simp [bind, Except.bind]
  | ok a => simp [bind, Except.bind]

@[simp] theorem bind_eq_error_iff {x : Except ε α} {f : α → Except ε β} :
    x >>= f = .error e ↔ x = .error e ∨ ∃ a, x = .ok a ∧ f a = .error e := by
  cases x with
  | error e => simp [bind, Except.bind]
  | ok a => simp [bind, Except.bind]

@[simp] theorem map_eq_ok_iff {x : Except ε α} {f : α → β} {b : β} :
    f <$> x = .ok b ↔ ∃ a, x = .ok a ∧ f a = b := by
  cases x with
  | error e => simp [Functor.map, Except.map]
  | ok a => simp [Functor.map, Except.map]

@[simp] theorem map_eq_error_iff {x : Except ε α} {f : α → β} :
    f <$> x = .error e ↔ x = .error e := by
  cases x with
  | error e => simp [Functor.map, Except.map]
  | ok a => simp [Functor.map, Except.map]

@[simp] theorem pure_eq_ok_iff {a b : α} : (pure a : Except ε α) = .ok b ↔ a = b :=
  Except.ok.injEq a b ▸ Iff.rfl

@[simp] theorem pure_ne_error {a : α} : (pure a : Except ε α) ≠ .error e := by
  intro h
  cases h

/-- Continuations only matter at the value of the first step. -/
theorem bind_congr_of_ok {x : Except ε α} {f g : α → Except ε β}
    (h : ∀ a, x = .ok a → f a = g a) : x >>= f = x >>= g := by
  cases x with
  | error e => rfl
  | ok a => exact h a rfl

/-- Two first steps whose values agree in some part go on alike if the continuations do at such
values. -/
theorem bind_congr_of_map {γ δ : Type} {x : Except ε α} {y : Except ε γ} {u : α → δ} {w : γ → δ}
    (h : u <$> x = w <$> y) {f : α → Except ε β} {g : γ → Except ε β}
    (hf : ∀ a c, u a = w c → f a = g c) : x >>= f = y >>= g := by
  cases x with
  | error e => cases y <;> cases h; rfl
  | ok a =>
    cases y with
    | error e => cases h
    | ok c => exact hf a c (Except.ok.inj h)

/-! ## A step at each member of a list -/

variable {f g : α → Except ε β} {as : List α} {bs : List β}

theorem mapM_eq_ok_iff :
    as.mapM f = .ok bs ↔ List.Forall₂ (fun a b => f a = .ok b) as bs := by
  induction as generalizing bs with
  | nil =>
    rw [List.mapM_nil, pure_eq_ok_iff, List.forall₂_nil_left_iff]
    exact eq_comm
  | cons a as ih =>
    simp only [List.mapM_cons, bind_eq_ok_iff, pure_eq_ok_iff, ih, List.forall₂_cons_left_iff]
    constructor
    · rintro ⟨b, hb, bs', hbs, rfl⟩
      exact ⟨b, bs', hb, hbs, rfl⟩
    · rintro ⟨b, bs', hb, hbs, rfl⟩
      exact ⟨b, hb, bs', hbs, rfl⟩

/-- Two relations that agree at the members of a list relate it to the same lists. -/
theorem forall₂_congr_of_mem {R S : α → β → Prop} (h : ∀ a ∈ as, ∀ b, R a b ↔ S a b) :
    List.Forall₂ R as bs ↔ List.Forall₂ S as bs := by
  induction as generalizing bs with
  | nil => simp only [List.forall₂_nil_left_iff]
  | cons a as ih =>
    simp only [List.forall₂_cons_left_iff, h a List.mem_cons_self,
      ih fun b hb => h b (List.mem_cons_of_mem a hb)]

/-- A step at each member succeeds if it does at every member. -/
theorem exists_mapM_ok_iff : (∃ bs, as.mapM f = .ok bs) ↔ ∀ a ∈ as, ∃ b, f a = .ok b := by
  induction as with
  | nil => exact ⟨fun _ a ha => absurd ha List.not_mem_nil, fun _ => ⟨[], rfl⟩⟩
  | cons a as ih =>
    simp only [List.mapM_cons, bind_eq_ok_iff, pure_eq_ok_iff, List.forall_mem_cons, ← ih]
    constructor
    · rintro ⟨_, b, hb, bs, hbs, rfl⟩
      exact ⟨⟨b, hb⟩, bs, hbs⟩
    · rintro ⟨⟨b, hb⟩, bs, hbs⟩
      exact ⟨_, b, hb, bs, hbs, rfl⟩

/-- A step at each member fails with the failure of the first member at which it does. -/
theorem mapM_eq_error_iff :
    as.mapM f = .error e ↔ ∃ front a back, as = front ++ a :: back ∧
      (∀ b ∈ front, ∃ v, f b = .ok v) ∧ f a = .error e := by
  induction as with
  | nil => simp
  | cons a as ih =>
    simp only [List.mapM_cons, bind_eq_error_iff, pure_ne_error, and_false, exists_false, or_false,
      ih]
    constructor
    · rintro (ha | ⟨v, ha, front, b, back, rfl, hf, hb⟩)
      · exact ⟨[], a, as, rfl, by simp, ha⟩
      · refine ⟨a :: front, b, back, rfl, ?_, hb⟩
        rintro x (_ | ⟨_, hx⟩)
        · exact ⟨v, ha⟩
        · exact hf x hx
    · rintro ⟨front, b, back, h, hf, hb⟩
      rcases front with _ | ⟨a', front⟩
      · obtain ⟨rfl, rfl⟩ := List.cons.inj h
        exact .inl hb
      · obtain ⟨rfl, rfl⟩ := List.cons.inj h
        obtain ⟨v, hv⟩ := hf a (by simp)
        exact .inr ⟨v, hv, front, b, back, rfl, fun x hx => hf x (by simp [hx]), hb⟩

theorem mapM_congr (h : ∀ a ∈ as, f a = g a) : as.mapM f = as.mapM g := by
  induction as with
  | nil => rfl
  | cons a as ih =>
    rw [List.mapM_cons, List.mapM_cons, h a (by simp), ih fun b hb => h b (by simp [hb])]

/-- What is made of the values by their positions has no influence on failures. -/
theorem mapM_zipIdx_eq_error_iff {γ : Type} (f : α → Except ε β) (g : Nat → β → γ) {n : Nat} :
    ((as.zipIdx n).mapM fun a => g a.2 <$> f a.1) = .error e ↔ as.mapM f = .error e := by
  induction as generalizing n with
  | nil => simp
  | cons a as ih => simp [List.zipIdx_cons, List.mapM_cons, ih]

theorem exists_mapM_zipIdx_ok_iff {γ : Type} (f : α → Except ε β) (g : Nat → β → γ) {n : Nat} :
    (∃ bs, ((as.zipIdx n).mapM fun a => g a.2 <$> f a.1) = .ok bs) ↔
      ∀ a ∈ as, ∃ b, f a = .ok b := by
  have found (x : Except ε β) (i : Nat) : (∃ b, g i <$> x = .ok b) ↔ ∃ b, x = .ok b := by
    cases x <;> simp
  simp only [exists_mapM_ok_iff, found]
  conv_rhs => rw [← List.zipIdx_map_fst n as, List.forall_mem_map]

/-! ## Values that stay -/

/-- The second outcome is the first one, if this is a value. -/
def Kept (x y : Except ε α) : Prop := ∀ a, x = .ok a → y = .ok a

namespace Kept

variable {x y : Except ε α}

theorem refl (x : Except ε α) : Kept x x := fun _ h => h

/-- A failure may become anything. -/
theorem error (e : ε) (y : Except ε α) : Kept (.error e) y := by
  intro a h
  cases h

theorem bind {f g : α → Except ε β} (h : Kept x y) (hf : ∀ a, x = .ok a → Kept (f a) (g a)) :
    Kept (x >>= f) (y >>= g) := by
  intro b hb
  obtain ⟨a, ha, hb⟩ := bind_eq_ok_iff.1 hb
  exact bind_eq_ok_iff.2 ⟨a, h a ha, hf a ha b hb⟩

theorem map (h : Kept x y) (f : α → β) : Kept (f <$> x) (f <$> y) := by
  intro b hb
  obtain ⟨a, ha, rfl⟩ := map_eq_ok_iff.1 hb
  exact map_eq_ok_iff.2 ⟨a, h a ha, rfl⟩

theorem mapM (h : ∀ a ∈ as, Kept (f a) (g a)) : Kept (as.mapM f) (as.mapM g) := by
  induction as with
  | nil => exact refl _
  | cons a as ih =>
    rw [List.mapM_cons, List.mapM_cons]
    refine (h a List.mem_cons_self).bind fun b _ => ?_
    exact (ih fun b hb => h b (List.mem_cons_of_mem a hb)).bind fun _ _ => refl _

end Kept

/-! ## Failures in other terms -/

variable {h : ε → ε'}

@[simp] theorem mapError_ok {a : α} : (Except.ok a : Except ε α).mapError h = .ok a := rfl

@[simp] theorem mapError_error : (Except.error e : Except ε α).mapError h = .error (h e) := rfl

@[simp] theorem mapError_pure {a : α} : (pure a : Except ε α).mapError h = pure a := rfl

@[simp] theorem mapError_id {x : Except ε α} : (x.mapError fun e => e) = x := by
  cases x <;> rfl

@[simp] theorem mapError_bind {x : Except ε α} {f : α → Except ε β} :
    (x >>= f).mapError h = x.mapError h >>= fun a => (f a).mapError h := by
  cases x <;> rfl

@[simp] theorem mapError_map {x : Except ε α} {f : α → β} :
    (f <$> x).mapError h = f <$> x.mapError h := by
  cases x <;> rfl

@[simp] theorem mapError_mapM :
    (as.mapM f).mapError h = as.mapM fun a => (f a).mapError h := by
  induction as with
  | nil => rfl
  | cons a as ih => simp only [List.mapM_cons, mapError_bind, mapError_pure, ih]

end ReadableTrace.Outcome
