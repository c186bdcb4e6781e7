import ReadableTrace.Proofs.Frame.Growth

/-!
# The style that is chosen

Styles are tried one after another, and the first that claims a frame is taken, so that a choice is
a search in the list of styles (`Frame.choose_eq`). A list of allowed styles only takes styles out
of this search: their order in the list, and whether they are repeated, does not matter. When all
styles are allowed, one of them claims every routine, since the last two styles claim all methods
and all constructors (`Style.exists_find?_all`).

`Frame.choose_first_claiming` says which style is chosen for which list, and that the choice among
all styles is kept by every list that has it.
-/

namespace ReadableTrace

open Log Outcome

variable {c : Catalog} {f : Frame} {ref : RoutineRef} {m : Routine} {s : Style}
  {styles allowed : List Style} {e : Fault}

namespace Frame

theorem resolve_eq_ok_iff :
    f.resolve c = .ok (ref, m) ↔ f.routine = some ref ∧ c.routine? ref = some m :=
  ⟨routine?_of_resolve, fun h => resolve_of_known h.1 h.2⟩

/-- A frame whose routine is not found lacks something. -/
theorem kind_of_resolve (h : f.resolve c = .error e) : e.kind = .absent := by
  rw [resolve] at h
  split at h
  · cases h
    rfl
  · obtain h := map_eq_error_iff.1 h
    rw [Catalog.routine] at h
    split at h
    · cases h
    · cases h
      rfl

end Frame

/-! ## Claims -/

namespace Style

/-- The style claims the frame. -/
def Claims (s : Style) (c : Catalog) (f : Frame) : Prop := (s.claims c f).outcome = .ok true

theorem claims_of_resolve (h : f.resolve c = .ok (ref, m)) (s : Style) :
    s.claims c f = if s.fits c m then Logged.note (.claimed s ref) >>= fun _ => pure true
      else pure false := by
  rw [claims, h]
  rfl

theorem claims_iff_fits (h : f.resolve c = .ok (ref, m)) : s.Claims c f ↔ s.fits c m = true := by
  rw [Claims, claims_of_resolve h]
  split
  · simp [*]
  · simp [*]

/-- Constructors are claimed by one style only. -/
theorem fits_of_isConstructor (h : m.isConstructor = true) :
    s.fits c m = true ↔ s = .constructor := by
  have noMethod : m.isMethod = false := by
    simp only [Routine.isConstructor, Routine.isMethod, beq_iff_eq] at h ⊢
    rw [h]
    rfl
  cases s <;> simp [fits, h, noMethod]

/-- Methods are claimed by the general style, and perhaps by others, but not as constructors. -/
theorem fits_of_isMethod (h : m.isMethod = true) :
    method.fits c m = true ∧ constructor.fits c m = false := by
  simp only [Routine.isMethod, beq_iff_eq] at h
  simp [fits, Routine.isMethod, Routine.isConstructor, h]

theorem isMethod_or_isConstructor (m : Routine) :
    m.isMethod = true ∨ m.isConstructor = true := by
  rw [Routine.isMethod, Routine.isConstructor]
  cases m.kind <;> decide

/-! ## Searching the allowed styles -/

/-- The first of the allowed styles with a property, in the order of all styles. -/
theorem find?_only_eq_some_iff {p : Style → Bool} :
    (only allowed).find? p = some s ↔ s ∈ allowed ∧ p s = true ∧
      ∃ front back, all = front ++ s :: back ∧ ∀ t ∈ front, t ∈ allowed → ¬ p t = true := by
  rw [only, List.find?_filter, List.find?_eq_some_iff_append]
  simp only [Bool.decide_and, Bool.decide_eq_true, Bool.and_eq_true, List.contains_eq_mem,
    decide_eq_true_eq, Bool.not_eq_true', Bool.and_eq_false_imp, and_assoc, Bool.not_eq_true]

theorem find?_only_eq_none_iff {p : Style → Bool} :
    (only allowed).find? p = none ↔ ∀ s ∈ allowed, ¬ p s = true := by
  simp [only, mem_all]

/-- A style that is found among all styles is found among those allowed, if it is one of them. -/
theorem find?_only_of_mem {p : Style → Bool} (h : all.find? p = some s) (hs : s ∈ allowed) :
    (only allowed).find? p = some s := by
  obtain ⟨hp, front, back, ha, hf⟩ := List.find?_eq_some_iff_append.1 h
  exact find?_only_eq_some_iff.2 ⟨hs, hp, front, back, ha, fun t ht _ => by simpa using hf t ht⟩

/-- Among all styles, one claims the routine. -/
theorem exists_find?_all (c : Catalog) (m : Routine) : ∃ s, all.find? (·.fits c m) = some s := by
  rw [← Option.isSome_iff_exists, List.find?_isSome]
  rcases isMethod_or_isConstructor m with h | h
  · exact ⟨method, mem_all _, (fits_of_isMethod h).1⟩
  · exact ⟨constructor, mem_all _, (fits_of_isConstructor h).2 rfl⟩

end Style

/-! ## Choices -/

namespace Frame

/-- How a search for a style ends. -/
def settle (ref : RoutineRef) (m : Routine) : Option Style → Logged Fault Style
  | some s => do
    Logged.note (.claimed s ref)
    pure s
  | none => do
    Logged.note (.unclaimed ref m.name)
    Logged.fail (.unclaimed m.name)

/-- A style is chosen by searching for one that claims the routine. -/
theorem choose_eq (h : f.resolve c = .ok (ref, m)) (styles : List Style) :
    f.choose c styles = settle ref m (styles.find? (·.fits c m)) := by
  induction styles with
  | nil =>
    rw [choose, h]
    rfl
  | cons s styles ih =>
    rw [choose, Style.claims_of_resolve h, List.find?_cons]
    cases s.fits c m with
    | true => rfl
    | false => exact ih

theorem choose_of_resolve_error (h : f.resolve c = .error e) (styles : List Style) :
    (f.choose c styles).outcome = .error e := by
  cases styles with
  | nil =>
    rw [choose, h]
    rfl
  | cons s styles =>
    rw [choose, Style.claims, h]
    rfl

theorem choose_eq_ok_iff (h : f.resolve c = .ok (ref, m)) :
    (f.choose c styles).outcome = .ok s ↔ styles.find? (·.fits c m) = some s := by
  rw [choose_eq h]
  cases styles.find? (·.fits c m) <;> simp [settle]

theorem choose_eq_error_iff (h : f.resolve c = .ok (ref, m)) :
    (f.choose c styles).outcome = .error e ↔
      e = .unclaimed m.name ∧ styles.find? (·.fits c m) = none := by
  rw [choose_eq h]
  cases styles.find? (·.fits c m) <;> simp [settle, eq_comm]

/-- A choice fails for want of a routine if the frame names none of the catalog, and only then. -/
theorem exists_choose_absent_iff :
    (∃ e, (f.choose c styles).outcome = .error e ∧ e.kind = .absent) ↔
      ¬ ∃ ref m, f.routine = some ref ∧ c.routine? ref = some m := by
  simp only [← resolve_eq_ok_iff]
  cases hr : f.resolve c with
  | error e => simp [choose_of_resolve_error hr, kind_of_resolve hr]
  | ok p =>
    have found : ∃ ref m, (Except.ok p : Except Fault _) = .ok (ref, m) := ⟨p.1, p.2, rfl⟩
    refine iff_of_false ?_ (not_not.2 found)
    rintro ⟨e, he, hk⟩
    obtain ⟨rfl, -⟩ := (choose_eq_error_iff hr).1 he
    cases hk

/-! ### Among all styles -/

/-- Among all styles, one is chosen for every routine of the catalog. -/
theorem kind_of_choose_all (h : (f.choose c Style.all).outcome = .error e) : e.kind = .absent := by
  cases hr : f.resolve c with
  | error e' =>
    obtain rfl := Except.error.inj ((choose_of_resolve_error hr _).symm.trans h)
    exact kind_of_resolve hr
  | ok p =>
    obtain ⟨s, hs⟩ := Style.exists_find?_all c p.2
    obtain ⟨-, hn⟩ := (choose_eq_error_iff hr).1 h
    cases hs.symm.trans hn

theorem choose_all_eq_constructor_iff (h : f.resolve c = .ok (ref, m)) :
    (f.choose c Style.all).outcome = .ok .constructor ↔ m.isConstructor = true := by
  rw [choose_eq_ok_iff h]
  constructor
  · intro hs
    have fits := List.find?_some hs
    exact fits
  · intro hm
    obtain ⟨s, hs⟩ := Style.exists_find?_all c m
    have fits := List.find?_some hs
    rwa [(Style.fits_of_isConstructor hm).1 fits] at hs

theorem exists_choose_all_iff (h : f.resolve c = .ok (ref, m)) :
    (∃ s, s ≠ .constructor ∧ (f.choose c Style.all).outcome = .ok s) ↔ m.isMethod = true := by
  simp only [choose_eq_ok_iff h]
  constructor
  · rintro ⟨s, hs, hf⟩
    have fits := List.find?_some hf
    refine (Style.isMethod_or_isConstructor m).resolve_right fun hm => hs ?_
    exact (Style.fits_of_isConstructor hm).1 fits
  · intro hm
    obtain ⟨s, hs⟩ := Style.exists_find?_all c m
    refine ⟨s, ?_, hs⟩
    rintro rfl
    have fits := List.find?_some hs
    rw [(Style.fits_of_isMethod hm).2] at fits
    cases fits

/-- The choice among all styles is made in the same way from every list that has it. -/
theorem choose_only_of_mem (h : (f.choose c Style.all).outcome = .ok s) (hs : s ∈ allowed) :
    f.choose c (Style.only allowed) = f.choose c Style.all := by
  cases hr : f.resolve c with
  | error e => cases (choose_of_resolve_error hr _).symm.trans h
  | ok p =>
    have found := (choose_eq_ok_iff hr).1 h
    rw [choose_eq hr, choose_eq hr, found, Style.find?_only_of_mem found hs]

/-- **The first style in the order of all styles that is allowed and claims the frame is chosen.**
There is a failure for want of a routine exactly if the frame names none of the catalog; otherwise
a style is chosen unless no allowed one claims the frame, which is then reported with the name of
the routine. So among all styles one is always found, that for constructors for these and one of
the others for methods, and it is chosen from every list that has it, with the same events and for
the same text. -/
theorem choose_first_claiming (c : Catalog) (f : Frame) :
    (∀ allowed,
      ((∃ e, (f.choose c (Style.only allowed)).outcome = .error e ∧ e.kind = .absent) ↔
        ¬ ∃ ref m, f.routine = some ref ∧ c.routine? ref = some m) ∧
      (∀ ref m, f.routine = some ref → c.routine? ref = some m →
        (∀ s, (f.choose c (Style.only allowed)).outcome = .ok s ↔
          s ∈ allowed ∧ s.Claims c f ∧ ∃ front back,
            [.lambda, .asyncMethod, .method, .constructor] = front ++ s :: back ∧
            ∀ t ∈ front, t ∈ allowed → ¬ t.Claims c f) ∧
        ∀ e, (f.choose c (Style.only allowed)).outcome = .error e ↔
          e = .unclaimed m.name ∧ ∀ s ∈ allowed, ¬ s.Claims c f) ∧
      ∀ s, (f.choose c Style.all).outcome = .ok s → s ∈ allowed →
        f.choose c (Style.only allowed) = f.choose c Style.all ∧
        ∀ v : View, v.catalog = c → f.render v (Style.only allowed) = f.render v Style.all) ∧
    (∀ e, (f.choose c Style.all).outcome = .error e → e.kind = .absent) ∧
    ∀ ref m, f.routine = some ref → c.routine? ref = some m →
      ((f.choose c Style.all).outcome = .ok .constructor ↔ m.isConstructor = true) ∧
      ((∃ s, s ≠ .constructor ∧ (f.choose c Style.all).outcome = .ok s) ↔ m.isMethod = true) := by
  refine ⟨fun allowed => ⟨exists_choose_absent_iff, ?_, ?_⟩, fun e => kind_of_choose_all, ?_⟩
  · intro ref m hf hm
    have hr := resolve_of_known hf hm
    simp only [Style.claims_iff_fits hr]
    exact ⟨fun s => (choose_eq_ok_iff hr).trans Style.find?_only_eq_some_iff,
      fun e => (choose_eq_error_iff hr).trans (and_congr_right' Style.find?_only_eq_none_iff)⟩
  · rintro s hs ha
    have same := choose_only_of_mem hs ha
    refine ⟨same, ?_⟩
    rintro v rfl
    rw [render, render, same]
  · intro ref m hf hm
    have hr := resolve_of_known hf hm
    exact ⟨choose_all_eq_constructor_iff hr, exists_choose_all_iff hr⟩

/-! ## A routine that three styles claim -/

/-- A lambda in the initial value of a field, on a state machine. -/
def stepCatalog : Catalog where
  types := #[{ TypeEntry.ofName (some "App") "Worker" with
    interfaces := [Style.stateMachineInterface] }]
  routines := #[.method "<.cctor>b__0_0" ⟨0⟩ ⟨0⟩]

/-- The order of a list and what is repeated in it do not matter; a list may leave all of them
out. -/
theorem choose_stepCatalog :
    (Frame.choose stepCatalog (.ofRoutine ⟨0⟩) Style.all).outcome = .ok .lambda ∧
    Frame.choose stepCatalog (.ofRoutine ⟨0⟩) (Style.only [.method, .lambda]) =
      Frame.choose stepCatalog (.ofRoutine ⟨0⟩) Style.all ∧
    (Frame.choose stepCatalog (.ofRoutine ⟨0⟩)
      (Style.only [.method, .asyncMethod, .method])).outcome = .ok .asyncMethod ∧
    (Frame.choose stepCatalog (.ofRoutine ⟨0⟩) (Style.only [.constructor])).outcome =
      .error (.unclaimed "<.cctor>b__0_0") := by
  have resolved : (ofRoutine ⟨0⟩).resolve stepCatalog =
      .ok (⟨0⟩, .method "<.cctor>b__0_0" ⟨0⟩ ⟨0⟩) := rfl
  have claims : Style.lambda.Claims stepCatalog (.ofRoutine ⟨0⟩) ∧
      Style.asyncMethod.Claims stepCatalog (.ofRoutine ⟨0⟩) ∧
      ¬ Style.constructor.Claims stepCatalog (.ofRoutine ⟨0⟩) := by
    simp only [Style.claims_iff_fits resolved]
    decide
  obtain ⟨restricted, -, -⟩ := choose_first_claiming stepCatalog (.ofRoutine ⟨0⟩)
  obtain ⟨-, all, -⟩ := restricted Style.all
  obtain ⟨-, -, kept⟩ := restricted [.method, .lambda]
  obtain ⟨-, methods, -⟩ := restricted [.method, .asyncMethod, .method]
  obtain ⟨-, constructors, -⟩ := restricted [.constructor]
  have chosen : (Frame.choose stepCatalog (.ofRoutine ⟨0⟩) Style.all).outcome = .ok .lambda :=
    ((all _ _ rfl rfl).1 .lambda).2 ⟨by decide, claims.1, [], _, rfl, by simp⟩
  refine ⟨chosen, (kept _ chosen (by decide)).1, ?_, ?_⟩
  · exact ((methods _ _ rfl rfl).1 .asyncMethod).2
      ⟨by decide, claims.2.1, [.lambda], _, rfl, by simp⟩
  · exact ((constructors _ _ rfl rfl).2 _).2 ⟨rfl, by simpa using claims.2.2⟩

end Frame

end ReadableTrace
