import ReadableTrace.Proofs.Frame.Heading
import ReadableTrace.Proofs.Spelling.Blank

/-!
# Frames of nameless types

Every frame is shown as a member of a type (`Style.headed_of_body`). A type whose spelling is blank
leaves a gap there, as in `void .Main()`, and the gap is blank only if the spelling is. That is so
for the types with hollow entries, among them the closure classes, and for no others
(`Style.blank_iff_hollow`).
-/

namespace ReadableTrace

open Log Outcome Spelling

namespace Style

variable {spelled shown : String}

/-- A namespace in front of a type is followed by a dot. -/
theorem ShownAs.isBlank (h : ShownAs spelled shown) (hb : Text.isBlank shown = true) :
    Text.isBlank spelled = true := by
  cases h with
  | bare => exact hb
  | qualified space =>
    have dot : Text.isBlank "." = false := by decide
    simp [dot] at hb

/-- **A type is shown as blank only if nothing is left of its names.** The spelling of a type is
blank exactly if the type is plain, seen through types of references, and its entry is hollow. An
entry with ordinary names is not hollow, and one whose name is read as that of a closure class is.
So a frame in any style is shown behind a blank type only if the type that it is shown as a member
of stands for a hollow one. -/
theorem blank_iff_hollow :
    (∀ c lead r s, (ofType c lead r).outcome = .ok s →
      (Text.isBlank s = true ↔ ∃ t, StandsFor c r t ∧ Hollow lead t)) ∧
    (∀ lead t, Name.Ordinary t.name → (∀ full, t.fullName = some full → Name.Ordinary full) →
      ¬ Hollow lead t) ∧
    (∀ lead t front back, decodable? lead t = some (front ++ "<>" ++ back) → '>' ∉ front.toList →
      ¬ Name.marker <:+: back.toList → Hollow lead t) ∧
    ∀ (s : Style) v f text, (s.render v f).outcome = .ok text →
      ∃ ref r opening owner spelled shown rest, f.resolve v.catalog = .ok (ref, r) ∧
        s.Heading v ref r opening owner ∧ (v.type owner).outcome = .ok spelled ∧
        ShownAs spelled shown ∧ text = opening ++ " " ++ shown ++ rest ++ v.suffix f ∧
        (Text.isBlank shown = true → Text.isBlank spelled = true) ∧
        (Text.isBlank spelled = true ↔
          ∃ t, StandsFor v.catalog owner t ∧ Hollow v.frameworkLead t) := by
  refine ⟨fun c lead r s h => isBlank_iff_of_ofType h, fun lead t => not_hollow_of_ordinary,
    fun lead t front back => .of_closureClass, fun s v f text h => ?_⟩
  obtain ⟨ref, r, body, resolved, hb, rfl⟩ := exists_body_of_render h
  obtain ⟨rest, heading, hs, shown, rfl⟩ := headed_of_body hb
  exact ⟨ref, r, _, _, _, _, rest, resolved, heading, hs, shown, rfl, shown.isBlank,
    isBlank_iff_of_ofType hs⟩

/-! ## A closure class -/

/-- A type, its closure class, and what a method of the class returns. -/
def closureCatalog : Catalog where
  types := #[.ofName (some "App") "Worker",
    { TypeEntry.ofName (some "App") "<>c" with
      fullName := some "App.Worker+<>c", enclosing := some ⟨0⟩ },
    .ofName (some "System") "Void"]
  routines := #[.method "Main" ⟨1⟩ ⟨2⟩]

/-- A view of the class without places in the source. -/
def closureView : View := ⟨closureCatalog, "System.", false⟩

theorem ofType_closureCatalog : (ofType closureCatalog "System." ⟨1⟩).outcome = .ok "" :=
  (ofType_iff_of_plain (t := closureCatalog.types[1]) rfl rfl).2
    (.decoded (d := ⟨"", none⟩)
      (show decodable? "System." closureCatalog.types[1] = some "App.Worker+<>c" by decide)
      (by decide))

theorem render_closureView :
    (method.render closureView (.ofRoutine ⟨0⟩)).outcome = .ok "void .Main()" := by
  have void : (ofType closureCatalog "System." ⟨2⟩).outcome = .ok "void" :=
    (ofType_iff_of_plain (t := .ofName (some "System") "Void") rfl rfl).2
      (.keyword rfl (by decide))
  have parts : MethodParts.Of closureView ⟨1⟩ (.method "Main" ⟨1⟩ ⟨2⟩)
      ⟨"void", "", ⟨"Main", none⟩, "", ""⟩ :=
    .of_spelled rfl rfl rfl ⟨_, rfl, rfl⟩ void ofType_closureCatalog (by decide)
  exact (outcome_render_eq_ok_iff rfl).2
    ⟨_, (outcome_methodBody_eq_ok_iff rfl rfl).2 ⟨_, parts, rfl⟩, by decide⟩

/-- The closure class is hollow, and the type that it belongs to is not. -/
theorem hollow_closureCatalog :
    (∃ t, StandsFor closureCatalog ⟨1⟩ t ∧ Hollow "System." t) ∧
      ¬ Hollow "System." closureCatalog.types[0] := by
  obtain ⟨iff, ordinary, -⟩ := blank_iff_hollow
  refine ⟨(iff _ _ _ _ ofType_closureCatalog).1 (by decide), ordinary _ _ ?_ ?_⟩
  · exact ⟨by decide, by decide, by decide⟩
  · intro full hf
    obtain rfl : "App.Worker" = full := Option.some.inj hf
    exact ⟨by decide, by decide, by decide⟩

/-- All names are there, and still the class has a blank spelling, which leaves a gap in a frame. -/
theorem blank_closureView :
    Text.isBlank "System." = false ∧
      (∀ t ∈ closureCatalog.types, Text.isBlank t.name = false ∧
        ∀ full ∈ t.fullName, Text.isBlank full = false) ∧
      (ofType closureCatalog "System." ⟨1⟩).outcome = .ok "" ∧ Text.isBlank "" = true ∧
      (method.render closureView (.ofRoutine ⟨0⟩)).outcome = .ok "void .Main()" :=
  ⟨by decide, by decide, ofType_closureCatalog, by decide, render_closureView⟩

end Style

end ReadableTrace
