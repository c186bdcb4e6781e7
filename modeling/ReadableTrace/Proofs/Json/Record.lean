import ReadableTrace.Json.Record
import Mathlib.Data.List.Nodup

/-!
# Members, numbers and sizes

* An object of named members is read by its known keys, whatever else it holds, if none of them
  repeats (`fields_ofMembers`).
* A number of 32 or 64 bits is read back (`toUInt32?_ofNat`, `toUInt64?_ofNat`).
* Natural numbers of 64 bits are not too large for a shape (`isTooLarge_ofNat`).
-/

namespace ReadableTrace.Json

/-! ## Members -/

variable {keys : List String} {ms : List (String × Json)}

/-- An object is read by the members that have known keys. -/
theorem fields_ofMembers (h : ((ms.filter (keys.contains ·.1)).map (·.1)).Nodup) :
    fields keys (ofMembers ms) = some (ms.filter (keys.contains ·.1)) := by
  change knownMembers keys (ms.map fun m => (some m.1, m.2)) = _
  induction ms with
  | nil => rfl
  | cons m ms ih =>
    obtain ⟨k, v⟩ := m
    rw [List.filter_cons] at h ⊢
    by_cases hk : keys.contains k = true
    · simp only [hk, if_true, List.map_cons, List.nodup_cons] at h ⊢
      have fresh : (ms.filter (keys.contains ·.1)).any (·.1 == k) = false := by
        rw [List.any_eq_false]
        intro m hm he
        exact h.1 (List.mem_map.2 ⟨m, hm, beq_iff_eq.1 he⟩)
      simp only [knownMembers, ih h.2, hk, fresh, Option.bind_eq_bind, Option.bind_some, if_true,
        if_false, Bool.false_eq_true]
    · simp only [hk, if_false, Bool.false_eq_true] at h ⊢
      simp only [List.map_cons, knownMembers, ih h, hk, Option.bind_eq_bind, Option.bind_some,
        if_false, Bool.false_eq_true]

/-- A record that is written with all its keys is read by all its members. -/
theorem fields_of_keys (h : ms.map (·.1) = keys) (hk : keys.Nodup) :
    fields keys (ofMembers ms) = some ms := by
  have all : ms.filter (keys.contains ·.1) = ms := by
    rw [List.filter_eq_self]
    intro m hm
    rw [← h, List.contains_iff_mem]
    exact List.mem_map_of_mem hm
  rw [fields_ofMembers (by rw [all, h]; exact hk), all]

/-! ## Fields -/

namespace Fields

variable {α : Type} {fs : Fields} {key k : String} {v : Json} {absent : α}
  {read : Json → Option α}

@[simp] theorem required_cons :
    required ((k, v) :: fs) key read = if key = k then read v else required fs key read := by
  unfold required
  rw [List.lookup_cons]
  by_cases h : key = k
  · simp [h]
  · have hb : (key == k) = false := by simpa using h
    rw [hb, if_neg h]

@[simp] theorem optional_cons :
    optional ((k, v) :: fs) key absent read =
      if key = k then read v else optional fs key absent read := by
  unfold optional
  rw [List.lookup_cons]
  by_cases h : key = k
  · simp [h]
  · have hb : (key == k) = false := by simpa using h
    rw [hb, if_neg h]

end Fields

/-! ## Numbers -/

@[simp] theorem toUInt32?_ofNat (n : UInt32) : toUInt32? (ofNat n.toNat) = some n := by
  have hn : n.toNat < UInt32.size := n.toNat_lt
  simp [toUInt32?, toNatBelow?, ofNat, Number.toNat?_ofNat, Option.filter, hn]

@[simp] theorem toUInt64?_ofNat (n : UInt64) : toUInt64? (ofNat n.toNat) = some n := by
  have hn : n.toNat < UInt64.size := n.toNat_lt
  simp [toUInt64?, toNatBelow?, ofNat, Number.toNat?_ofNat, Option.filter, hn]

namespace Number

/-- Digits that all fit are all taken up. -/
theorem absorb_of_le {s : Nat} {ds : List Char}
    (h : ds.foldl (fun n c => n * 10 + Decimal.digitValue c) s ≤ maxSignificand) :
    absorb s ds = (ds.foldl (fun n c => n * 10 + Decimal.digitValue c) s, []) := by
  have grows (ds : List Char) (s : Nat) :
      s ≤ ds.foldl (fun n c => n * 10 + Decimal.digitValue c) s := by
    induction ds generalizing s with
    | nil => exact Nat.le_refl s
    | cons d ds ih =>
      have := ih (s * 10 + Decimal.digitValue d)
      rw [List.foldl_cons]
      omega
  induction ds generalizing s with
  | nil => rfl
  | cons d ds ih =>
    rw [List.foldl_cons] at h ⊢
    rw [absorb, if_pos (Nat.le_trans (grows ds _) h), ih h]

theorem parts_ofNat {n : Nat} (h : n ≤ maxSignificand) : (ofNat n).parts = (n, 0) := by
  have hv : (Decimal.digits n).foldl (fun n c => n * 10 + Decimal.digitValue c) 0 = n :=
    Decimal.value_digits n
  have ha : absorb 0 (Decimal.digits n) = (n, []) := by
    rw [absorb_of_le (hv.symm ▸ h), hv]
  simp [parts, ofNat, ha, absorb]

/-- A number of at most 53 bits has its place among the numbers of 64 bits. -/
theorem isTooLarge_ofNat {n : Nat} (h : n.log2 < 53) : (ofNat n).isTooLarge = false := by
  have hlt : n < 2 ^ 53 := by
    by_cases h0 : n = 0
    · omega
    · exact (Nat.log2_lt h0).1 h
  have hm : n ≤ maxSignificand := by
    unfold maxSignificand
    omega
  have hn : toNearest n = n := toNearest_of_log2_lt h
  have bound : 2 ^ 53 ≤ overflowBound := by decide +kernel
  have fits : decide (overflowBound ≤ toNearest n * toNearest (Nat.pow 10 (0 : Int).toNat)) =
      false := by
    rw [hn, show toNearest (Nat.pow 10 (0 : Int).toNat) = 1 by decide, decide_eq_false_iff_not]
    omega
  have power : decide (maxPower < 0) = false := by decide
  simp only [isTooLarge, parts_ofNat hm, fits, power, Bool.or_self, Bool.and_false]

end Number

end ReadableTrace.Json
