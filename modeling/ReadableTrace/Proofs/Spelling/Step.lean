import ReadableTrace.Proofs.Catalog.Walk
import ReadableTrace.Spelling.Type

/-!
# One step of spelling a type

`Spelling.along` spells a type by its entry, and the types it is built from by calls to itself.
What a call does is said by `along_of_mem` for a type on the path, by `along_of_unknown` for an
unknown type and by `along_of_known` for any other. For outcomes alone this module takes entry and
calls apart: `ofEntry` spells an entry when the spelling of all types is given, and a type of the
catalog that is not on the path is spelled by `ofEntry`, with the type itself added to the path of
the calls (`outcome_along`). The induction that goes with the three cases is
`Catalog.walk_induction`.
-/

namespace ReadableTrace.Spelling

open Log

variable {c : Catalog} {lead : String} {path : List TypeRef} {r : TypeRef} {t : TypeEntry}

/-- The outcome for the name of a generic type, whose definition has the entry `d`. -/
def ofHead (lead : String) (d : TypeEntry) (spell : TypeRef → Except Fault String) :
    Except Fault String :=
  match d.shape with
  | .byRef e => spell e
  | _ => (ofNames lead d).outcome

/-- The outcome for an entry, with the outcomes for all types given. -/
def ofEntry (c : Catalog) (lead : String) (t : TypeEntry) (spell : TypeRef → Except Fault String) :
    Except Fault String :=
  match t.shape with
  | .plain => (ofNames lead t).outcome
  | .byRef e => spell e
  | .nullable u => (· ++ "?") <$> spell u
  | .array e n => (· ++ Catalog.brackets n) <$> spell e
  | .generic d args => do
    let d ← definitionOf c t d
    let head ← ofHead lead d spell
    let spelled ← args.mapM spell
    pure (head ++ angled spelled)

theorem along_of_mem (h : r ∈ path) : along c lead path r = (do
    Logged.note (.shapeCycle r)
    Logged.fail (.selfReference r)) := by
  rw [along, dif_pos h]

theorem along_of_unknown (h : r ∉ path) (hr : c.type? r = none) :
    along c lead path r = Logged.fail (.unknownType r) := by
  rw [along, dif_neg h]
  split
  · rfl
  · rename_i hk
    rw [hr] at hk
    cases hk

theorem along_of_known (h : r ∉ path) (hr : c.type? r = some t) :
    along c lead path r = (match t.shape with
      | .plain => ofNames lead t
      | .byRef a => along c lead (r :: path) a
      | .nullable a => (· ++ "?") <$> along c lead (r :: path) a
      | .array a n => (· ++ Catalog.brackets n) <$> along c lead (r :: path) a
      | .generic d args => do
        let u ← Logged.lift (definitionOf c t d)
        let head ← (match u.shape with
          | .byRef a => along c lead (r :: path) a
          | _ => ofNames lead u)
        let spelled ← Logged.traverse (fun a => along c lead (r :: path) a) args
        pure (head ++ angled spelled)) := by
  rw [along, dif_neg h]
  split
  · rename_i hk
    rw [hr] at hk
    cases hk
  · rename_i t' hk
    obtain rfl : t' = t := Option.some.inj (hk.symm.trans hr)
    rfl

theorem outcome_along_of_mem (h : r ∈ path) :
    (along c lead path r).outcome = .error (.selfReference r) := by
  rw [along_of_mem h]
  rfl

theorem outcome_along_of_unknown (h : r ∉ path) (hr : c.type? r = none) :
    (along c lead path r).outcome = .error (.unknownType r) := by
  rw [along_of_unknown h hr]
  rfl

theorem outcome_along (h : r ∉ path) (hr : c.type? r = some t) :
    (along c lead path r).outcome =
      ofEntry c lead t fun a => (along c lead (r :: path) a).outcome := by
  rw [along_of_known h hr, ofEntry]
  cases hs : t.shape with
  | generic d args =>
    simp only [Logged.outcome_bind, Logged.outcome_lift, Logged.outcome_traverse,
      Logged.outcome_pure]
    refine bind_congr fun u => ?_
    rw [ofHead]
    cases u.shape <;> rfl
  | _ => simp

end ReadableTrace.Spelling
