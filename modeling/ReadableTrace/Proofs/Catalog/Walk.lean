import ReadableTrace.Catalog.Basic

/-!
# Induction along a walk

A walk goes from type to type of the catalog and keeps the path on which it came. It stops at a type
that is on the path and at an unknown type, and from any other it may go on to any type, with the
type itself added to the path. `walk_induction` is the induction for what is computed along a walk:
whatever holds of a type on its path, of an unknown type, and of a known type as soon as it holds of
all types behind it, holds everywhere.
-/

namespace ReadableTrace.Catalog

/-- Induction along the walks through a catalog. Going on to a known type that is not on the path
leaves fewer types outside the path, so every walk ends. -/
@[elab_as_elim]
theorem walk_induction {c : Catalog} {motive : List TypeRef → TypeRef → Prop}
    (onPath : ∀ path r, r ∈ path → motive path r)
    (unknown : ∀ path r, r ∉ path → c.type? r = none → motive path r)
    (known : ∀ path r t, r ∉ path → c.type? r = some t → (∀ a, motive (r :: path) a) →
      motive path r) :
    ∀ path r, motive path r := by
  intro path
  induction h : c.outside path using Nat.strongRecOn generalizing path with
  | ind n ih =>
    intro r
    by_cases hp : r ∈ path
    · exact onPath path r hp
    cases hr : c.type? r with
    | none => exact unknown path r hp hr
    | some t =>
      exact known path r t hp hr (ih _ (h ▸ outside_cons_lt hr hp) _ rfl)

end ReadableTrace.Catalog
