import ReadableTrace.Frame.Choice
import ReadableTrace.Proofs.Spelling.Warning

/-!
# Warnings of frames

The searches for what a compiler moved warn of what they do not find (`Frame.warnsOnly_fieldHolding`,
`Frame.warnsOnly_asyncMethodOf`), and choosing a style warns of a routine that no style claims
(`Frame.warnsOnly_choose`). Styles pass these failures on and add no warnings of their own
(`Style.warnsOnly_render`).
-/

namespace ReadableTrace

open Log Logged

variable {c : Catalog} {v : View} {f : Frame} {ref : RoutineRef} {m : Routine}

/-! ## Searches -/

namespace Frame

theorem unwarned_resolve (f : Frame) (c : Catalog) : Unwarned (f.resolve c) := by
  rw [resolve]
  split
  · rfl
  · rw [Catalog.routine]
    split <;> rfl

theorem warnsOnly_noField (target : RoutineRef) : (noField target).WarnsOnly := .report rfl rfl

theorem warnsOnly_fieldOutwards (c : Catalog) (target : RoutineRef) (start : TypeRef)
    (path : List TypeRef) (r : TypeRef) : (fieldOutwards c target start path r).WarnsOnly := by
  induction path, r using Catalog.walk_induction (c := c) with
  | onPath path r hp =>
    rw [fieldOutwards, dif_pos hp]
    exact .report rfl rfl
  | unknown path r hp hr =>
    rw [fieldOutwards, dif_neg hp]
    split
    · exact warnsOnly_noField target
    · rename_i hk
      rw [hr] at hk
      cases hk
  | known path r t hp _ ih =>
    rw [fieldOutwards, dif_neg hp]
    split
    · exact warnsOnly_noField target
    · split
      · exact .pure _
      · split
        · exact warnsOnly_noField target
        · exact ih _

theorem warnsOnly_fieldHolding (c : Catalog) (target : RoutineRef) (start : TypeRef) :
    (fieldHolding c target start).WarnsOnly :=
  warnsOnly_fieldOutwards c target start [] start

theorem warnsOnly_asyncMethodOf (c : Catalog) (outer machine : TypeRef) :
    (asyncMethodOf c outer machine).WarnsOnly := by
  refine (WarnsOnly.lift Catalog.unwarned_type).bind fun entry => ?_
  split
  · exact .pure _
  · exact .report rfl rfl
  · exact .report rfl rfl

end Frame

/-! ## Parts -/

namespace View

theorem warnsOnly_type (v : View) (r : TypeRef) : (v.type r).WarnsOnly :=
  Spelling.warnsOnly_ofType _ _ r

theorem warnsOnly_parameter (v : View) (p : Parameter) : (v.parameter p).WarnsOnly :=
  Spelling.warnsOnly_ofParameter _ _ p

theorem warnsOnly_returned : (v.returned m).WarnsOnly := by
  rw [returned]
  split
  · exact warnsOnly_parameter v _
  · exact .fail rfl

theorem warnsOnly_parameters : (v.parameters m).WarnsOnly :=
  (WarnsOnly.traverse (warnsOnly_parameter v) _).map _

theorem warnsOnly_typeArguments : (v.typeArguments m).WarnsOnly := by
  rw [typeArguments]
  split
  · exact (WarnsOnly.traverse (warnsOnly_type v) _).map _
  · exact .pure _

end View

theorem Routine.unwarned_declaringType (m : Routine) : Unwarned m.declaringType := by
  rw [declaringType]
  split <;> rfl

/-! ## Styles -/

namespace Style

theorem unwarned_machineOf (m : Routine) : Unwarned (machineOf m) := by
  rw [machineOf]
  split <;> rfl

theorem unwarned_aroundMachine (machine : TypeRef) : Unwarned (aroundMachine c machine) := by
  refine Catalog.unwarned_type.bind fun entry => ?_
  split <;> rfl

theorem unwarned_isIndexer : Unwarned (isIndexer c ref m) := by
  rw [isIndexer]
  split
  · split
    · rfl
    · exact Catalog.unwarned_type.map _
  · rfl

theorem warnsOnly_lambdaBody : (lambdaBody v ref m).WarnsOnly := by
  refine (WarnsOnly.lift m.unwarned_declaringType).bind fun start => ?_
  refine (Frame.warnsOnly_fieldHolding _ _ _).bind fun (owner, field) => ?_
  refine (v.warnsOnly_type _).bind fun delegate => ?_
  refine (WarnsOnly.lift (Name.unwarned_decode _)).bind fun name => ?_
  refine (WarnsOnly.lift Catalog.unwarned_type).bind fun entry => ?_
  refine (v.warnsOnly_type _).bind fun spelled => ?_
  dsimp only
  split
  · exact .pure _
  · exact View.warnsOnly_typeArguments.bind fun _ => .pure _

theorem warnsOnly_asyncBody : (asyncBody v m).WarnsOnly := by
  refine (WarnsOnly.lift (unwarned_machineOf m)).bind fun machine => ?_
  refine (WarnsOnly.lift (unwarned_aroundMachine machine)).bind fun outer => ?_
  refine (Frame.warnsOnly_asyncMethodOf _ _ _).bind fun source => ?_
  refine View.warnsOnly_returned.bind fun result => (v.warnsOnly_type _).bind fun declaring => ?_
  refine (WarnsOnly.lift (Name.unwarned_decode _)).bind fun name => ?_
  refine View.warnsOnly_typeArguments.bind fun arguments => ?_
  exact View.warnsOnly_parameters.bind fun _ => .pure _

theorem warnsOnly_methodBody : (methodBody v ref m).WarnsOnly := by
  refine View.warnsOnly_returned.bind fun result => ?_
  refine (WarnsOnly.lift m.unwarned_declaringType).bind fun owner => ?_
  refine (v.warnsOnly_type _).bind fun declaring => ?_
  refine View.warnsOnly_parameters.bind fun parameters => ?_
  refine (WarnsOnly.lift unwarned_isIndexer).bind fun indexer => ?_
  split
  · exact .pure _
  · refine (WarnsOnly.lift (Name.unwarned_decode _)).bind fun name => ?_
    exact View.warnsOnly_typeArguments.bind fun _ => .pure _

theorem warnsOnly_constructorBody : (constructorBody v m).WarnsOnly := by
  refine (WarnsOnly.lift m.unwarned_declaringType).bind fun owner => ?_
  refine (WarnsOnly.lift Catalog.unwarned_type).bind fun entry => ?_
  refine (v.warnsOnly_type _).bind fun spelled => ?_
  refine View.warnsOnly_typeArguments.bind fun arguments => ?_
  exact View.warnsOnly_parameters.bind fun _ => .pure _

theorem warnsOnly_body (s : Style) : (s.body v ref m).WarnsOnly := by
  cases s with
  | lambda => exact warnsOnly_lambdaBody
  | asyncMethod => exact warnsOnly_asyncBody
  | method => exact warnsOnly_methodBody
  | constructor => exact warnsOnly_constructorBody

/-- A style warns of the failures that it passes on, and of nothing else. -/
theorem warnsOnly_render (s : Style) (v : View) (f : Frame) : (s.render v f).WarnsOnly := by
  refine (WarnsOnly.lift (f.unwarned_resolve _)).bind fun (ref, m) => ?_
  exact (warnsOnly_body s).bind fun _ => .pure _

theorem warnsOnly_claims (s : Style) (c : Catalog) (f : Frame) : (s.claims c f).WarnsOnly := by
  refine (WarnsOnly.lift (f.unwarned_resolve _)).bind fun (ref, m) => ?_
  dsimp only
  split
  · exact (WarnsOnly.note rfl).bind fun _ => .pure _
  · exact .pure _

end Style

/-- Choosing a style warns of a routine that no style claims. -/
theorem Frame.warnsOnly_choose (c : Catalog) (f : Frame) (styles : List Style) :
    (choose c f styles).WarnsOnly := by
  induction styles with
  | nil =>
    refine (WarnsOnly.lift (f.unwarned_resolve _)).bind fun (ref, m) => ?_
    exact .report rfl rfl
  | cons s styles ih =>
    refine (s.warnsOnly_claims c f).bind fun claimed => ?_
    split
    · exact .pure _
    · exact ih

end ReadableTrace
