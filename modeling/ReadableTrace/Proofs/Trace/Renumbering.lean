import ReadableTrace.Proofs.Trace.Shown
import Mathlib.Logic.Equiv.Basic

/-!
# Catalogs in another order

The entries of a catalog may be put in another order, if every reference to an entry follows it to
its new position: those in the entries themselves and those in the frames. `Catalog.renumber` does
so for a permutation of the types and one of the routines. References beyond the entries stay as
they are.

A renumbered catalog is the catalog under a renaming (`renames_renumber`), and it hides the same
frames (`isHidden_renumber`). So it shows every list of frames alike, and where one of the two
fails so does the other, for a reason of the same kind (`render_renumber`).
-/

namespace ReadableTrace

open Log Outcome

/-! ## Positions under a permutation -/

section Positions

variable {α : Type} {n : Nat} {σ : Equiv.Perm (Fin n)} {i : UInt32}

/-- Where a permutation of `n` entries moves the entry at a position. A position behind the entries
stays. -/
def movedIndex (σ : Equiv.Perm (Fin n)) (i : UInt32) : UInt32 :=
  if h : i.toNat < n then UInt32.ofNat (σ ⟨i.toNat, h⟩) else i

/-- What a reference can point to is moved to where a reference can point to. References have 32
bits, so this only excludes something of permutations of more than `2 ^ 32` entries. -/
def Addressable (σ : Equiv.Perm (Fin n)) : Prop :=
  ∀ j : Fin n, j.val < UInt32.size → (σ j).val < UInt32.size

theorem addressable_of_le (h : n ≤ UInt32.size) : Addressable σ := by
  intro j _
  have := (σ j).isLt
  omega

theorem movedIndex_of_le (h : n ≤ i.toNat) : movedIndex σ i = i :=
  dif_neg (Nat.not_lt.2 h)

theorem toNat_movedIndex (hσ : Addressable σ) (h : i.toNat < n) :
    (movedIndex σ i).toNat = σ ⟨i.toNat, h⟩ := by
  rw [movedIndex, dif_pos h, UInt32.toNat_ofNat']
  exact Nat.mod_eq_of_lt (hσ _ i.toNat_lt_size)

/-- Entries stay among the entries. -/
theorem toNat_movedIndex_lt_iff (hσ : Addressable σ) :
    (movedIndex σ i).toNat < n ↔ i.toNat < n := by
  rcases Nat.lt_or_ge i.toNat n with hi | hi
  · rw [toNat_movedIndex hσ hi]
    exact iff_of_true (σ ⟨i.toNat, hi⟩).isLt hi
  · rw [movedIndex_of_le hi]

theorem movedIndex_injective (hσ : Addressable σ) : Function.Injective (movedIndex σ) := by
  intro i j he
  have same : i.toNat < n ↔ j.toNat < n := by
    rw [← toNat_movedIndex_lt_iff hσ, he, toNat_movedIndex_lt_iff hσ]
  rcases Nat.lt_or_ge i.toNat n with hi | hi
  · have hs : (σ ⟨i.toNat, hi⟩).val = σ ⟨j.toNat, same.1 hi⟩ := by
      rw [← toNat_movedIndex hσ hi, ← toNat_movedIndex hσ (same.1 hi), he]
    exact UInt32.toNat_inj.1 (Fin.mk.inj (σ.injective (Fin.ext hs)))
  · have hj : n ≤ j.toNat := Nat.not_lt.1 (mt same.2 (Nat.not_lt.2 hi))
    rwa [movedIndex_of_le hi, movedIndex_of_le hj] at he

/-- The entries in the order that a permutation of their positions gives. -/
def permuted (as : Array α) (σ : Equiv.Perm (Fin as.size)) : Array α :=
  Array.ofFn fun j => as[σ.symm j]

/-- Every entry is found at the position to which it is moved. -/
theorem getElem?_permuted {as : Array α} {σ : Equiv.Perm (Fin as.size)} (hσ : Addressable σ)
    (i : UInt32) : (permuted as σ)[(movedIndex σ i).toNat]? = as[i.toNat]? := by
  rcases Nat.lt_or_ge i.toNat as.size with hi | hi
  · have hs := toNat_movedIndex hσ hi
    have hlt := (toNat_movedIndex_lt_iff hσ).2 hi
    have back : σ.symm ⟨(movedIndex σ i).toNat, hlt⟩ = ⟨i.toNat, hi⟩ := by
      rw [Equiv.symm_apply_eq]
      exact Fin.ext hs
    rw [permuted, Array.getElem?_ofFn, dif_pos hlt, Array.getElem?_eq_getElem hi]
    exact congrArg (fun j : Fin as.size => some as[j]) back
  · rw [movedIndex_of_le hi, Array.getElem?_eq_none hi,
      Array.getElem?_eq_none (by simpa [permuted] using hi)]

end Positions

/-! ## Catalogs -/

/-- The references to permuted entries. -/
def Renaming.ofPerms {n m : Nat} (σ : Equiv.Perm (Fin n)) (τ : Equiv.Perm (Fin m)) : Renaming where
  type r := ⟨movedIndex σ r.index⟩
  routine r := ⟨movedIndex τ r.index⟩

namespace Catalog

/-- The catalog with its types and its routines in another order, and with every reference in them
following the entry that it points to. -/
def renumber (c : Catalog) (σ : Equiv.Perm (Fin c.types.size))
    (τ : Equiv.Perm (Fin c.routines.size)) : Catalog where
  types := (permuted c.types σ).map (·.rename (.ofPerms σ τ))
  routines := (permuted c.routines τ).map (·.rename (.ofPerms σ τ))

variable {c : Catalog} {σ : Equiv.Perm (Fin c.types.size)} {τ : Equiv.Perm (Fin c.routines.size)}

theorem type?_renumber (hσ : Addressable σ) (r : TypeRef) :
    (c.renumber σ τ).type? ((Renaming.ofPerms σ τ).type r) =
      (c.type? r).map (·.rename (.ofPerms σ τ)) := by
  rw [type?, type?, renumber, Renaming.ofPerms, Array.getElem?_map, getElem?_permuted hσ]

theorem routine?_renumber (hτ : Addressable τ) (r : RoutineRef) :
    (c.renumber σ τ).routine? ((Renaming.ofPerms σ τ).routine r) =
      (c.routine? r).map (·.rename (.ofPerms σ τ)) := by
  rw [routine?, routine?, renumber, Renaming.ofPerms, Array.getElem?_map, getElem?_permuted hτ]

theorem renames_renumber (hσ : Addressable σ) (hτ : Addressable τ) :
    Renames (.ofPerms σ τ) c (c.renumber σ τ) where
  type_injective r q h := by
    cases r; cases q
    exact congrArg _ (movedIndex_injective hσ (TypeRef.mk.inj h))
  routine_injective r q h := by
    cases r; cases q
    exact congrArg _ (movedIndex_injective hτ (RoutineRef.mk.inj h))
  type? := type?_renumber hσ
  routine? r := by rw [routine?_renumber hτ, Option.map_map]; rfl

/-- Marks move with the routines. -/
theorem isHidden_renumber (hτ : Addressable τ) (f : Frame) :
    (f.rename (.ofPerms σ τ)).isHidden (c.renumber σ τ) = f.isHidden c := by
  have same (r : RoutineRef) :
      (c.renumber σ τ).isHidden ((Renaming.ofPerms σ τ).routine r) = c.isHidden r := by
    rw [isHidden, isHidden, routine?_renumber hτ, Option.any_map]
    rfl
  rw [Frame.isHidden, Frame.isHidden, Frame.rename, Option.any_map]
  exact congrArg (f.routine.any ·) (funext same)

end Catalog

/-! ## Traces -/

namespace Renderer

/-- **How entries are numbered does not matter.** A catalog in another order gives the same trace of
frames that follow their routines, if the catalog itself gives one, and otherwise fails for a reason
of the same kind; if no style claims a frame, then it is a frame of a routine of the same name. -/
theorem render_renumber (r : Renderer) (c : Catalog) (frames : List Frame)
    (σ : Equiv.Perm (Fin c.types.size)) (τ : Equiv.Perm (Fin c.routines.size))
    (hσ : Addressable σ) (hτ : Addressable τ) :
    (∀ t, (r.render c frames).outcome = .ok t →
      (r.render (c.renumber σ τ) (frames.map (·.rename (.ofPerms σ τ)))).outcome = .ok t) ∧
    (∀ e, (r.render c frames).outcome = .error e →
      ∃ e', (r.render (c.renumber σ τ) (frames.map (·.rename (.ofPerms σ τ)))).outcome =
          .error e' ∧
        e'.kind = e.kind ∧ ∀ name, e = .unclaimed name → e' = .unclaimed name) := by
  have shown : ∀ f ∈ frames,
      r.shows (c.renumber σ τ) (f.rename (.ofPerms σ τ)) = r.shows c f := by
    intro f _
    rw [shows, shows, Catalog.isHidden_renumber hτ]
  have alike := outcome_render_rename (Catalog.renames_renumber hσ hτ) shown
  constructor
  · intro t ht
    rw [alike, ht]
    rfl
  · intro e he
    refine ⟨e.rename (.ofPerms σ τ), by rw [alike, he]; rfl, Fault.kind_rename _ e, ?_⟩
    rintro name rfl
    rfl

/-- The permutation that makes the two routines of the guarded catalog change places. -/
def exchange : Equiv.Perm (Fin guardedCatalog.routines.size) :=
  (Equiv.swap 0 1 : Equiv.Perm (Fin 2))

theorem render_guardedCatalog_exchange :
    (Addressable (Equiv.refl (Fin guardedCatalog.types.size)) ∧ Addressable exchange) ∧
    ∃ t, (standard.render guardedCatalog [.ofRoutine ⟨1⟩, .ofRoutine ⟨0⟩]).outcome = .ok t ∧
      (standard.render (guardedCatalog.renumber (Equiv.refl _) exchange)
        [.ofRoutine ⟨0⟩, .ofRoutine ⟨1⟩]).outcome = .ok t ∧
      t.frames = ["new App.Worker() in :line 0"] := by
  have ht : Addressable (Equiv.refl (Fin guardedCatalog.types.size)) :=
    addressable_of_le (by decide)
  have hm : Addressable exchange := addressable_of_le (by decide)
  have known : ∀ f ∈ [Frame.ofRoutine ⟨1⟩, .ofRoutine ⟨0⟩], f.IsKnown guardedCatalog := by
    simp only [List.forall_mem_cons]
    exact ⟨⟨⟨1⟩, _, rfl, rfl⟩, ⟨⟨0⟩, _, rfl, rfl⟩, fun _ h => absurd h List.not_mem_nil⟩
  have visible : [Frame.ofRoutine ⟨1⟩, .ofRoutine ⟨0⟩].filter (standard.shows guardedCatalog) =
      [.ofRoutine ⟨0⟩] := by decide
  have made : (standard.render guardedCatalog [.ofRoutine ⟨1⟩, .ofRoutine ⟨0⟩]).outcome =
      .ok ⟨["new App.Worker() in :line 0"], standard.frameLead, standard.separator⟩ := by
    refine render_eq_ok_iff.2 ⟨known, ?_, rfl, rfl⟩
    rw [visible]
    exact .cons textOf_guardedCatalog .nil
  have moved : [Frame.ofRoutine ⟨1⟩, .ofRoutine ⟨0⟩].map (·.rename
      (.ofPerms (Equiv.refl (Fin guardedCatalog.types.size)) exchange)) =
      [.ofRoutine ⟨0⟩, .ofRoutine ⟨1⟩] := by decide
  exact ⟨⟨ht, hm⟩, _, made,
    moved ▸ (render_renumber standard guardedCatalog _ _ exchange ht hm).1 _ made, rfl⟩

end Renderer

end ReadableTrace
