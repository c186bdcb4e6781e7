import ReadableTrace.Proofs.Spelling.Cycles

/-!
# The path as a stack

`Spelling.along` hands the path on from call to call. Here the same walk has one path for all calls:
a type is put on it before its shape is looked at and taken off behind that, whatever the outcome
(`onPath`). Nothing says beforehand that the path is left as it was or that the walk ends; only so
many visits as there is room for can be open at the same time (`visit`). Every call is kept as a
`Visit`, with the path that it found, the path that it left, and the visits that it made itself.

* With room for the types outside the path and one more visit, the walk ends and does what `along`
  says (`visited`), and all its visits are `Regular`: each leaves the path as it found it, and those
  that it makes, as for the arguments of a generic type, all find this path with its own type on
  top.
* So the path that a visit finds are the types of the visits that are open around it
  (`Visit.Open.found_eq`). They are known and without duplicates, and every open visit leaves fewer
  types outside the path. Therefore no more visits are ever open than there are types, and one for a
  type that is refused (`visit_path`).
-/

namespace ReadableTrace.Spelling

open Log

/-! ## A walk with one path -/

/-- A visit to a type. -/
structure Visit where
  type : TypeRef
  /-- The path that the visit found. -/
  found : List TypeRef
  /-- The path that the visit left. -/
  left : List TypeRef
  outcome : Except Fault String
  /-- The visits that were made by this one, in order; not those that were made by them. -/
  inner : List Visit

/-- What changes during a walk. -/
structure Walk where
  /-- The types that are being spelled, the last one first. -/
  path : List TypeRef
  events : List Event
  /-- What was visited so far by the visit that is going on. -/
  visits : List Visit

/-- Computations on a walk. What was changed before a failure stays changed. A computation that runs
out of room gives nothing at all. -/
abbrev Walking := ExceptT Fault (StateT Walk Option)

/-- A computation that leaves the path alone and visits nothing. -/
def Walking.ofLogged {α : Type} (x : Logged Fault α) : Walking α :=
  fun w => some (x.outcome, { w with events := w.events ++ x.events })

section

variable (c : Catalog) (lead : String) (spell : TypeRef → Walking String)

/-- Spells an entry by its names, or what it refers to. The definition of a generic type is spelled
that way too, without being on the path. -/
def byEntry (t : TypeEntry) : Walking String :=
  match t.shape with
  | .byRef element => spell element
  | _ => Walking.ofLogged (ofNames lead t)

/-- Spells a type by its shape. -/
def byShape (type : TypeRef) : Walking String := do
  let t ← Walking.ofLogged (.lift (c.type type))
  match t.shape with
  | .nullable underlying => (· ++ "?") <$> spell underlying
  | .array element rank => (· ++ Catalog.brackets rank) <$> spell element
  | .generic definition arguments =>
    let d ← Walking.ofLogged (.lift (definitionOf c t definition))
    let head ← byEntry lead spell d
    let spelled ← arguments.mapM spell
    return head ++ angled spelled
  | _ => byEntry lead spell t

/-- Spells a type, which is on the path meanwhile and must not be there before. -/
def onPath (type : TypeRef) : Walking String := (do
  if type ∈ (← get).path then
    modify fun w => { w with events := w.events ++ [.shapeCycle type] }
    return .error (.selfReference type)
  modify fun w => { w with path := type :: w.path }
  let outcome ← (byShape c lead spell type).run
  modify fun w => { w with path := w.path.tail }
  return outcome : StateT Walk Option (Except Fault String))

end

/-- Spells a type and keeps a record of the visit. There is room for so many open visits, this one
included; nothing comes of a walk that needs more. -/
def visit (c : Catalog) (lead : String) : Nat → TypeRef → Walking String
  | 0, _ => fun _ => none
  | room + 1, type => (do
    let before ← get
    set { before with visits := [] }
    let outcome ← (onPath c lead (visit c lead room) type).run
    let after ← get
    set { after with
      visits := before.visits ++ [Visit.mk type before.path after.path outcome after.visits] }
    return outcome : StateT Walk Option (Except Fault String))

variable {c : Catalog} {lead : String} {path found types types' : List TypeRef} {r : TypeRef}
  {t u : TypeEntry} {w w' : Walk} {room : Nat} {spell : TypeRef → Walking String}

theorem run_visit : (visit c lead (room + 1) r).run.run w =
    ((onPath c lead (visit c lead room) r).run.run { w with visits := [] }).map fun p =>
      (p.1, { p.2 with visits := w.visits ++ [⟨r, w.path, p.2.path, p.1, p.2.visits⟩] }) := by
  rw [visit]
  simp only [ExceptT.run, bind_pure_comp, StateT.run_bind, StateT.run_get, Option.pure_def,
    StateT.run_set, StateT.run_map, Option.map_eq_map, Option.map_some, Option.bind_eq_bind,
    Option.bind_some]
  cases StateT.run (onPath c lead (visit c lead room) r) { w with visits := [] } <;> rfl

theorem run_onPath_of_mem (h : r ∈ w.path) : (onPath c lead spell r).run.run w =
    some (.error (.selfReference r), { w with events := w.events ++ [.shapeCycle r] }) := by
  rw [onPath]
  simp [ExceptT.run, h]

theorem run_onPath (h : r ∉ w.path) : (onPath c lead spell r).run.run w =
    ((byShape c lead spell r).run.run { w with path := r :: w.path }).map fun p =>
      (p.1, { p.2 with path := p.2.path.tail }) := by
  rw [onPath]
  simp only [ExceptT.run, bind_pure_comp, StateT.run_bind, StateT.run_get, Option.pure_def,
    Option.bind_eq_bind, Option.bind_some, h, ↓reduceIte, StateT.run_modify, StateT.run_map,
    Option.map_eq_map, Option.map_some]
  cases StateT.run (byShape c lead spell r) { w with path := r :: w.path } <;> rfl

/-! ## Visits and what they visit -/

/-- What a type on the path of its visit leads to: nothing if it was there before. -/
def behind (c : Catalog) (path : List TypeRef) (r : TypeRef) : List TypeRef :=
  if r ∈ path then [] else followed c r

/-- Types were visited in order, all on the same path: all of the types if the outcome is a value,
and only the first of them, as far as this came, if it is a failure. -/
structure Made {α : Type} (found types : List TypeRef) (outcome : Except Fault α)
    (made : List Visit) : Prop where
  found_eq : ∀ v ∈ made, v.found = found
  types_prefix : made.map Visit.type <+: types
  types_eq : ∀ a, outcome = .ok a → made.map Visit.type = types

/-- What a visit does: it spells its type along the path that it found, leaves this path whatever
the outcome, and visits what the type leads to with the type on top of the path. -/
structure Visit.Regular (c : Catalog) (lead : String) (v : Visit) : Prop where
  outcome_eq : v.outcome = (along c lead v.found v.type).outcome
  left_eq : v.left = v.found
  inner_made : Made (v.type :: v.found) (behind c v.found v.type) v.outcome v.inner

/-- The visit itself and all that were made during it. -/
abbrev Visit.Within : Visit → Visit → Prop := Relation.ReflTransGen fun v u => u ∈ v.inner

namespace Made

variable {α β : Type} {x : Except Fault α} {y : Except Fault β} {vs us : List Visit}

theorem nil : Made found [] x [] :=
  ⟨fun _ hv => absurd hv List.not_mem_nil, List.prefix_rfl, fun _ _ => rfl⟩

/-- Nothing is visited behind a failure. -/
theorem error {e : Fault} (h : Made found types (.error e : Except Fault α) vs) :
    Made found (types ++ types') (.error e : Except Fault β) vs where
  found_eq := h.found_eq
  types_prefix := h.types_prefix.trans (List.prefix_append _ _)
  types_eq := by
    intro a ha
    cases ha

theorem append {a : α} (h : Made found types (.ok a : Except Fault α) vs)
    (h' : Made found types' y us) : Made found (types ++ types') y (vs ++ us) where
  found_eq := List.forall_mem_append.2 ⟨h.found_eq, h'.found_eq⟩
  types_prefix := by
    rw [List.map_append, h.types_eq a rfl]
    exact (List.prefix_append_right_inj _).2 h'.types_prefix
  types_eq := by
    intro b hb
    rw [List.map_append, h.types_eq a rfl, h'.types_eq b hb]

end Made

/-- Visits are only made by a known type that was not on the path. -/
theorem Visit.Regular.fresh {v u : Visit} (h : v.Regular c lead) (hu : u ∈ v.inner) :
    v.type ∉ v.found ∧ ∃ t, c.type? v.type = some t := by
  have led : u.type ∈ behind c v.found v.type :=
    h.inner_made.types_prefix.subset (List.mem_map_of_mem hu)
  rw [behind] at led
  split at led
  · cases led
  · rename_i hn
    refine ⟨hn, ?_⟩
    cases ht : c.type? v.type with
    | none => simp [followed, ht] at led
    | some t => exact ⟨t, rfl⟩

/-! ## Computations that leave the path -/

section

variable {α β : Type} {m : Walking α} {f : α → Walking β} {b : α} {e : Fault}

theorem run_bind_of_ok (h : m.run.run w = some (.ok b, w')) :
    (m >>= f).run.run w = (f b).run.run w' := by
  rw [ExceptT.run_bind, StateT.run_bind, h]
  rfl

theorem run_bind_of_error (h : m.run.run w = some (.error e, w')) :
    (m >>= f).run.run w = some (.error e, w') := by
  rw [ExceptT.run_bind, StateT.run_bind, h]
  rfl

end

theorem ofLogged_ok_bind {α β : Type} {b : α} {f : α → Walking β} :
    Walking.ofLogged (.lift (.ok b)) >>= f = f b := by
  funext w
  show f b { w with events := w.events ++ [] } = f b w
  rw [List.append_nil]

/-- From any walk on the path, the computation ends, does what `x` says and leaves the path; the
visits that it makes are those to the types, which find the path `found`. -/
def Runs (c : Catalog) (lead : String) (path found : List TypeRef) {α : Type} (m : Walking α)
    (x : Logged Fault α) (types : List TypeRef) : Prop :=
  ∀ w : Walk, w.path = path → ∃ made : List Visit,
    m.run.run w =
      some (x.outcome, { w with events := w.events ++ x.events, visits := w.visits ++ made }) ∧
    Made found types x.outcome made ∧ ∀ v ∈ made, ∀ u, v.Within u → u.Regular c lead

namespace Runs

variable {α β : Type} {m : Walking α} {x : Logged Fault α}

theorem of_no_visits (h : ∀ w : Walk, w.path = path →
    m.run.run w = some (x.outcome, { w with events := w.events ++ x.events })) :
    Runs c lead path found m x [] := by
  intro w hw
  refine ⟨[], ?_, .nil, fun _ hv => absurd hv List.not_mem_nil⟩
  rw [h w hw, List.append_nil]

theorem ofLogged (x : Logged Fault α) : Runs c lead path found (Walking.ofLogged x) x [] :=
  of_no_visits fun _ _ => rfl

theorem pure (b : α) : Runs c lead path found (Pure.pure b) (Pure.pure b) [] := by
  refine of_no_visits fun w _ => ?_
  rw [Logged.events_pure, List.append_nil]
  rfl

theorem bind {f : α → Walking β} {g : α → Logged Fault β} (hm : Runs c lead path found m x types)
    (hf : ∀ b, x.outcome = .ok b → Runs c lead path found (f b) (g b) types') :
    Runs c lead path found (m >>= f) (x >>= g) (types ++ types') := by
  intro w hw
  obtain ⟨made, run, hmade, regular⟩ := hm w hw
  cases hx : x.outcome with
  | error e =>
    rw [hx] at run hmade
    rw [Logged.outcome_bind, hx, Logged.events_bind_of_error hx]
    exact ⟨made, run_bind_of_error run, hmade.error, regular⟩
  | ok b =>
    rw [hx] at run hmade
    obtain ⟨made', run', hmade', regular'⟩ := hf b hx { w with
      events := w.events ++ x.events, visits := w.visits ++ made } hw
    rw [Logged.outcome_bind, hx, Logged.events_bind_of_ok hx]
    refine ⟨made ++ made', ?_, hmade.append hmade', List.forall_mem_append.2 ⟨regular, regular'⟩⟩
    rw [run_bind_of_ok run, run']
    simp only [List.append_assoc]
    rfl

theorem map (h : Runs c lead path found m x types) (f : α → β) :
    Runs c lead path found (f <$> m) (f <$> x) types := by
  rw [map_eq_pure_bind, map_eq_pure_bind, ← List.append_nil types]
  exact h.bind fun b _ => pure (f b)

theorem mapM {f : TypeRef → Walking β} {g : TypeRef → Logged Fault β}
    (h : ∀ a, Runs c lead path found (f a) (g a) [a]) (as : List TypeRef) :
    Runs c lead path found (as.mapM f) (Logged.traverse g as) as := by
  induction as with
  | nil => exact pure []
  | cons a as ih =>
    simp only [List.mapM_cons, Logged.traverse, bind_pure_comp]
    exact (h a).bind fun b _ => ih.map (b :: ·)

end Runs

/-! ## One visit -/

/-- What the name of a generic type whose definition has the entry `u` leads to. -/
def referent (u : TypeEntry) : List TypeRef :=
  match u.shape with
  | .byRef a => [a]
  | _ => []

theorem followed_of_generic {d : Option TypeRef} {args : List TypeRef} (hr : c.type? r = some t)
    (hs : t.shape = .generic d args) (hd : definitionOf c t d = .ok u) :
    followed c r = referent u ++ args := by
  rw [followed, hr, Option.map_some, hs]
  cases d with
  | none =>
    obtain rfl : t = u := Except.ok.inj hd
    rw [referent, hs]
    rfl
  | some d =>
    rw [definitionOf_some_eq_ok_iff] at hd
    simp only [Option.bind_some, hd, Option.map_some, referent]
    cases u.shape <;> rfl

/-- The types are spelled on the path as `along` says, each by a visit of its own. -/
def Spells (c : Catalog) (lead : String) (path : List TypeRef) (spell : TypeRef → Walking String) :
    Prop :=
  ∀ a, Runs c lead path path (spell a) (along c lead path a) [a]

theorem Spells.runs_byEntry (h : Spells c lead path spell) (u : TypeEntry) :
    Runs c lead path path (byEntry lead spell u)
      (match u.shape with
        | .byRef a => along c lead path a
        | _ => ofNames lead u)
      (referent u) := by
  rw [byEntry, referent]
  cases u.shape with
  | byRef a => exact h a
  | _ => exact .ofLogged _

theorem Spells.runs_byShape (h : Spells c lead (r :: path) spell) (hp : r ∉ path)
    (hr : c.type? r = some t) :
    Runs c lead (r :: path) (r :: path) (byShape c lead spell r) (along c lead path r)
      (followed c r) := by
  have known : c.type r = .ok t := by rw [Catalog.type, hr]
  rw [along_of_known hp hr, byShape, known, ofLogged_ok_bind]
  cases hs : t.shape with
  | plain =>
    simpa only [followed, hr, Option.map_some, hs, referent] using h.runs_byEntry t
  | byRef a =>
    simpa only [followed, hr, Option.map_some, hs, referent] using h.runs_byEntry t
  | nullable a =>
    simpa only [followed, hr, Option.map_some, hs] using (h a).map (· ++ "?")
  | array a n =>
    simpa only [followed, hr, Option.map_some, hs] using (h a).map (· ++ Catalog.brackets n)
  | generic d args =>
    -- no type is visited to find the definition, then the head, then the arguments
    rw [← List.nil_append (followed c r)]
    refine (Runs.ofLogged (.lift (definitionOf c t d))).bind fun u hd => ?_
    rw [followed_of_generic hr hs hd]
    refine (h.runs_byEntry u).bind fun head _ => ?_
    simp only [bind_pure_comp]
    exact (Runs.mapM h args).map fun spelled => head ++ angled spelled

theorem runs_byShape_of_unknown (hp : r ∉ path) (hr : c.type? r = none) :
    Runs c lead (r :: path) (r :: path) (byShape c lead spell r) (along c lead path r)
      (followed c r) := by
  have unknown : c.type r = .error (.unknownType r) := by rw [Catalog.type, hr]
  rw [along_of_unknown hp hr, byShape, unknown, followed, hr]
  exact .of_no_visits fun w _ => run_bind_of_error rfl

theorem runs_onPath_of_mem (hp : r ∈ path) :
    Runs c lead path (r :: path) (onPath c lead spell r) (along c lead path r)
      (behind c path r) := by
  rw [behind, if_pos hp, along_of_mem hp]
  exact .of_no_visits fun w hw => run_onPath_of_mem (hw ▸ hp)

/-- Spelling the shape leaves the path with the type on top, so that this is what is taken off. -/
theorem runs_onPath (hp : r ∉ path)
    (h : Runs c lead (r :: path) (r :: path) (byShape c lead spell r) (along c lead path r)
      (followed c r)) :
    Runs c lead path (r :: path) (onPath c lead spell r) (along c lead path r)
      (behind c path r) := by
  intro w hw
  obtain ⟨made, run, hmade, regular⟩ := h { w with path := r :: w.path } (by rw [hw])
  rw [behind, if_neg hp]
  refine ⟨made, ?_, hmade, regular⟩
  rw [run_onPath (hw ▸ hp), run]
  -- the tail of the path with the type on top is the path
  rfl

/-- From any walk on the path, the visit ends and does what `along` says. It leaves the path and is
kept as one visit. -/
def Visited (c : Catalog) (lead : String) (path : List TypeRef) (room : Nat) (r : TypeRef) : Prop :=
  ∀ w : Walk, w.path = path → ∃ v : Visit, v.type = r ∧ v.found = path ∧
    (visit c lead room r).run.run w = some (v.outcome,
      { w with events := w.events ++ (along c lead path r).events, visits := w.visits ++ [v] }) ∧
    ∀ u, v.Within u → u.Regular c lead

theorem spells_visit (h : ∀ a, Visited c lead path room a) :
    Spells c lead path (visit c lead room) := by
  intro a w hw
  obtain ⟨v, hv, hf, run, regular⟩ := h a w hw
  have outcome := (regular v .refl).outcome_eq
  rw [hf, hv] at outcome
  have types_eq : [v].map Visit.type = [a] := by rw [List.map_singleton, hv]
  refine ⟨[v], ?_, ⟨?_, types_eq ▸ List.prefix_rfl, fun _ _ => types_eq⟩, ?_⟩
  · rw [run, outcome]
  · exact List.forall_mem_singleton.2 hf
  · exact List.forall_mem_singleton.2 regular

/-- A visit is regular if those that it makes are. -/
theorem visited_of_runs (h : Runs c lead path (r :: path) (onPath c lead (visit c lead room) r)
    (along c lead path r) (behind c path r)) : Visited c lead path (room + 1) r := by
  intro w hw
  obtain ⟨made, run, hmade, regular⟩ := h { w with visits := [] } hw
  refine ⟨⟨r, path, path, (along c lead path r).outcome, made⟩, rfl, rfl, ?_, ?_⟩
  · rw [run_visit, run, ← hw]
    rfl
  · intro u hu
    rcases hu.cases_head with rfl | ⟨v, hv, hu⟩
    · exact ⟨rfl, rfl, hmade⟩
    · exact regular v hv u hu

/-- **Every visit ends and leaves the path.** Whatever is on the path and in the catalog, a visit
does what `along` says, if there is room for the types outside the path and for one visit more. -/
theorem visited (c : Catalog) (lead : String) (path : List TypeRef) (room : Nat) (r : TypeRef)
    (h : c.outside path ≤ room) : Visited c lead path (room + 1) r := by
  induction path, r using Catalog.walk_induction (c := c) generalizing room with
  | onPath path r hp => exact visited_of_runs (runs_onPath_of_mem hp)
  | unknown path r hp hr => exact visited_of_runs (runs_onPath hp (runs_byShape_of_unknown hp hr))
  | known path r t hp hr ih =>
    -- what the shape leads to is visited on a longer path, which leaves fewer types outside
    have less : c.outside (r :: path) < room :=
      Nat.lt_of_lt_of_le (Catalog.outside_cons_lt hr hp) h
    obtain ⟨room, rfl⟩ := Nat.exists_eq_succ_of_ne_zero (Nat.ne_zero_of_lt less)
    have spells := spells_visit fun a => ih a room (Nat.le_of_lt_succ less)
    exact visited_of_runs (runs_onPath hp (spells.runs_byShape hp hr))

/-! ## Open visits -/

theorem outside_le_size (c : Catalog) (path : List TypeRef) : c.outside path ≤ c.types.size := by
  simpa only [Catalog.outside, List.length_range] using
    List.countP_le_length (l := List.range c.types.size)

/-- A path on which no type is twice and none is unknown. -/
structure Proper (c : Catalog) (path : List TypeRef) : Prop where
  nodup : path.Nodup
  known : ∀ q ∈ path, ∃ t, c.type? q = some t

namespace Proper

theorem nil : Proper c [] := ⟨.nil, fun _ hq => absurd hq List.not_mem_nil⟩

theorem cons (h : Proper c path) (hn : r ∉ path) (hr : c.type? r = some t) : Proper c (r :: path) :=
  ⟨List.nodup_cons.2 ⟨hn, h.nodup⟩, List.forall_mem_cons.2 ⟨⟨t, hr⟩, h.known⟩⟩

/-- Every type on the path is one less outside it. -/
theorem length_add_outside_le (h : Proper c path) :
    path.length + c.outside path ≤ c.types.size := by
  induction path with
  | nil =>
    rw [List.length_nil, Nat.zero_add]
    exact outside_le_size c []
  | cons r path ih =>
    obtain ⟨hn, hnodup⟩ := List.nodup_cons.1 h.nodup
    obtain ⟨⟨t, hr⟩, hknown⟩ := List.forall_mem_cons.1 h.known
    have less := Catalog.outside_cons_lt hr hn
    have rest := ih ⟨hnodup, hknown⟩
    rw [List.length_cons]
    omega

end Proper

/-- While `v` is going on, the visits of the list are open around it, the innermost first. -/
inductive Visit.Open (root : Visit) : Visit → List Visit → Prop
  | root : root.Open root []
  | inner {v u outer} : root.Open v outer → u ∈ v.inner → root.Open u (v :: outer)

namespace Visit.Open

variable {root v : Visit} {outer : List Visit}

theorem within (h : root.Open v outer) : root.Within v := by
  induction h with
  | root => exact .refl
  | inner _ hu ih => exact ih.tail hu

/-- The path that a visit finds are the types of the visits that are open around it, in front of the
path that the first one found. -/
theorem found_eq (h : root.Open v outer) (hr : ∀ u, root.Within u → u.Regular c lead) :
    v.found = outer.map Visit.type ++ root.found := by
  induction h with
  | root => rfl
  | inner ho hu ih =>
    rw [(hr _ ho.within).inner_made.found_eq _ hu, ih, List.map_cons, List.cons_append]

theorem proper_found (h : root.Open v outer) (hr : ∀ u, root.Within u → u.Regular c lead)
    (hp : Proper c root.found) : Proper c v.found := by
  induction h with
  | root => exact hp
  | inner ho hu ih =>
    have regular := hr _ ho.within
    obtain ⟨hn, t, ht⟩ := regular.fresh hu
    rw [regular.inner_made.found_eq _ hu]
    exact ih.cons hn ht

end Visit.Open

/-- **The path of a walk is the stack of its open visits.** The visit to a type from an empty path
ends with an empty path and what `ofType` says, and it takes no more room than one visit for each
type of the catalog and one more. Of every visit on the way, `outer` being those that are open
around it: the path that it finds are their types, all known and none twice; with it there are at
most as many as there is room for; the path is left as it was found, whatever the outcome; and the
visits that it makes itself all find the same path. -/
theorem visit_path (c : Catalog) (lead : String) (type : TypeRef) (further : Nat) :
    ∃ root events,
      (visit c lead (c.types.size + 1 + further) type).run.run ⟨[], [], []⟩ =
        some (root.outcome, ⟨[], events, [root]⟩) ∧
      ofType c lead type = ⟨root.outcome, events⟩ ∧ root.type = type ∧
      ∀ v outer, root.Open v outer →
        v.found = outer.map Visit.type ∧ v.found.Nodup ∧
        (∀ q ∈ v.found, ∃ t, c.type? q = some t) ∧
        (v :: outer).length ≤ c.types.size + 1 ∧
        v.left = v.found ∧ v.outcome = (along c lead v.found v.type).outcome ∧
        Made (v.type :: v.found) (behind c v.found v.type) v.outcome v.inner := by
  have room : c.outside [] ≤ c.types.size + further :=
    Nat.le_add_right_of_le (outside_le_size c [])
  obtain ⟨root, htype, hfound, run, regular⟩ :=
    visited c lead [] (c.types.size + further) type room ⟨[], [], []⟩ rfl
  rw [Nat.add_right_comm] at run
  have outcome := (regular root .refl).outcome_eq
  rw [hfound, htype] at outcome
  refine ⟨root, (ofType c lead type).events, run, Logged.ext outcome.symm rfl, htype, ?_⟩
  intro v outer h
  obtain ⟨houtcome, hleft, hinner⟩ := regular v h.within
  have types : v.found = outer.map Visit.type := by
    rw [h.found_eq regular, hfound, List.append_nil]
  have proper := h.proper_found regular (hfound ▸ .nil)
  refine ⟨types, proper.nodup, proper.known, ?_, hleft, houtcome, hinner⟩
  have bound := proper.length_add_outside_le
  rw [types, List.length_map] at bound
  rw [List.length_cons]
  omega

/-- A type that is built from itself, alone in its catalog, is visited a second time during its own
visit and refused there. So room for as many visits as there are types does not do. -/
example :
    let catalog : Catalog := ⟨#[{ TypeEntry.ofName none "Many" with shape := .array ⟨0⟩ 1 }], #[]⟩
    let again : Visit := ⟨⟨0⟩, [⟨0⟩], [⟨0⟩], .error (.selfReference ⟨0⟩), []⟩
    (visit catalog "System." 1 ⟨0⟩).run.run ⟨[], [], []⟩ = none ∧
    (visit catalog "System." 2 ⟨0⟩).run.run ⟨[], [], []⟩ = some (.error (.selfReference ⟨0⟩),
      ⟨[], [.shapeCycle ⟨0⟩], [⟨⟨0⟩, [], [], .error (.selfReference ⟨0⟩), [again]⟩]⟩) :=
  ⟨rfl, rfl⟩

end ReadableTrace.Spelling
