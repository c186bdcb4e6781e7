import ReadableTrace.Log.Event

/-!
# Computations that report events

`Logged ε α` is the outcome of a computation together with the events on the way to it, in order. A
failure ends the computation and keeps the events before it. `Logged.outcome` forgets the events;
it goes through every operation (`outcome_bind`, `outcome_traverse`), so that a statement on
outcomes never has to speak of events.
-/

namespace ReadableTrace.Log

/-- An outcome and the events on the way to it. -/
structure Logged (ε α : Type) where
  outcome : Except ε α
  events : List Event

namespace Logged

variable {ε ε' α β γ : Type}

/-- A value, without events. -/
protected def pure (a : α) : Logged ε α := ⟨.ok a, []⟩

/-- One computation after another. -/
protected def bind (x : Logged ε α) (f : α → Logged ε β) : Logged ε β :=
  match x.outcome with
  | .ok a => ⟨(f a).outcome, x.events ++ (f a).events⟩
  | .error e => ⟨.error e, x.events⟩

instance : Monad (Logged ε) where
  pure := Logged.pure
  bind := Logged.bind

@[ext] theorem ext {x y : Logged ε α} (ho : x.outcome = y.outcome) (he : x.events = y.events) :
    x = y := by
  cases x; cases y; simp_all

instance : LawfulMonad (Logged ε) := LawfulMonad.mk' (Logged ε)
  (by rintro α ⟨_ | _, _⟩ <;> simp [Functor.map, Logged.bind, Logged.pure])
  (by intro α β x f; simp [Bind.bind, Pure.pure, Logged.bind, Logged.pure])
  (by
    rintro α β γ ⟨_ | a, _⟩ f g
    · simp [Bind.bind, Logged.bind]
    · cases h : (f a).outcome <;> simp [Bind.bind, Logged.bind, h])

/-- Reports an event. -/
def note (e : Event) : Logged ε Unit := ⟨.ok (), [e]⟩

/-- Fails. -/
def fail (e : ε) : Logged ε α := ⟨.error e, []⟩

/-- An outcome without events. -/
def lift (x : Except ε α) : Logged ε α := ⟨x, []⟩

/-- The same events with the failure put in other terms. -/
def mapError (f : ε → ε') (x : Logged ε α) : Logged ε' α := ⟨x.outcome.mapError f, x.events⟩

/-- The values of a computation at each member of a list, in order. -/
def traverse (f : α → Logged ε β) : List α → Logged ε (List β)
  | [] => pure []
  | a :: as => do
    let b ← f a
    let bs ← traverse f as
    pure (b :: bs)

theorem lift_ok (a : α) : (lift (.ok a) : Logged ε α) = pure a := rfl

/-! ## Outcomes -/

@[simp] theorem outcome_pure (a : α) : (pure a : Logged ε α).outcome = .ok a := rfl

@[simp] theorem outcome_bind (x : Logged ε α) (f : α → Logged ε β) :
    (x >>= f).outcome = x.outcome >>= fun a => (f a).outcome := by
  rcases x with ⟨_ | a, _⟩ <;> rfl

@[simp] theorem outcome_map (x : Logged ε α) (f : α → β) :
    (f <$> x).outcome = f <$> x.outcome := by
  rcases x with ⟨_ | a, _⟩ <;> rfl

@[simp] theorem outcome_note (e : Event) : (note e : Logged ε Unit).outcome = .ok () := rfl

@[simp] theorem outcome_fail (e : ε) : (fail e : Logged ε α).outcome = .error e := rfl

@[simp] theorem outcome_lift (x : Except ε α) : (lift x).outcome = x := rfl

@[simp] theorem outcome_traverse (f : α → Logged ε β) (as : List α) :
    (traverse f as).outcome = as.mapM fun a => (f a).outcome := by
  induction as with
  | nil => rfl
  | cons a as ih => simp [traverse, ih]

/-! ## Events -/

@[simp] theorem events_pure (a : α) : (pure a : Logged ε α).events = [] := rfl

@[simp] theorem events_note (e : Event) : (note e : Logged ε Unit).events = [e] := rfl

@[simp] theorem events_fail (e : ε) : (fail e : Logged ε α).events = [] := rfl

@[simp] theorem events_lift (x : Except ε α) : (lift x).events = [] := rfl

theorem events_bind_of_ok {x : Logged ε α} {a : α} (h : x.outcome = .ok a)
    (f : α → Logged ε β) : (x >>= f).events = x.events ++ (f a).events := by
  rcases x with ⟨_ | _, _⟩
  · cases h
  · cases h; rfl

theorem events_bind_of_error {x : Logged ε α} {e : ε} (h : x.outcome = .error e)
    (f : α → Logged ε β) : (x >>= f).events = x.events := by
  rcases x with ⟨_ | _, _⟩
  · rfl
  · cases h

end Logged

end ReadableTrace.Log
