import ReadableTrace.Files.Path

/-!
# Paths in the same folder

A path that ends with a name is some pieces with that name behind them (`exists_last`). The paths
that have the same pieces in front lead through the same folders: that of the file, that with
another ending (`withEnding_append_singleton`) and that of the folder around, which is the shortest
(`parent?_append_singleton`, `fits_parent`). With another ending a name is another name, unless it
leads to the folder around (`nameWithEnding_ne`).
-/

namespace ReadableTrace.Files.Path

variable {ps front : List String} {name ending : String}

theorem cut_ne_nil (cs : List Char) : cut cs ≠ [] := by
  cases cs with
  | nil => exact nofun
  | cons c cs =>
    rw [cut]
    split
    · exact nofun
    · split <;> exact nofun

/-- A text that stands for a path has pieces. -/
theorem pieces_ne_nil {text : String} {p : Path} (h : ofText? text = some p) : p.pieces ≠ [] := by
  rw [ofText?] at h
  split at h
  case isTrue => cases h
  case isFalse =>
    obtain rfl := Option.some.inj h
    simpa using cut_ne_nil text.toList

/-- Pieces that do not end like the path of a folder end with a name. -/
theorem exists_last (hn : ps ≠ []) (h : endsOpen ⟨ps⟩ = false) :
    ∃ front name, ps = front ++ [name] ∧ isVoid name = false := by
  obtain ⟨front, name, rfl⟩ := (List.eq_nil_or_concat ps).resolve_left hn
  exact ⟨front, name, List.concat_eq_append, by simpa [endsOpen] using h⟩

theorem endsOpen_append_singleton (front : List String) (name : String) :
    endsOpen ⟨front ++ [name]⟩ = isVoid name := by
  simp [endsOpen]

theorem names_append_singleton (h : isVoid name = false) :
    names ⟨front ++ [name]⟩ = names ⟨front⟩ ++ [name] := by
  simp [names, h]

/-- The last piece does not show in where a path starts. -/
theorem isAbsolute_append_singleton (front : List String) (name : String) :
    isAbsolute ⟨front ++ [name]⟩ = isAbsolute ⟨front ++ [""]⟩ := by
  have several (piece : String) (rest : List String) (h : rest ≠ []) :
      isAbsolute ⟨piece :: rest⟩ = decide (piece = "") := by
    obtain ⟨next, rest, rfl⟩ := List.exists_cons_of_ne_nil h
    by_cases hp : piece = "" <;> simp [isAbsolute, hp]
  cases front with
  | nil => simp [isAbsolute]
  | cons piece front =>
    rw [List.cons_append, List.cons_append, several _ _ (by simp), several _ _ (by simp)]

theorem splitLast?_append_singleton (front : List String) (h : isVoid name = false) :
    splitLast? (front ++ [name]) = some (front, name) := by
  induction front with
  | nil => simp [splitLast?, h]
  | cons piece front ih => simp [splitLast?, ih]

/-- Where nothing is split off, there is no name. -/
theorem isVoid_of_splitLast? (h : splitLast? ps = none) : ∀ piece ∈ ps, isVoid piece = true := by
  induction ps with
  | nil => exact fun _ => nofun
  | cons piece rest ih =>
    rw [splitLast?] at h
    split at h
    case h_1 => cases h
    case h_2 hs =>
      split at h
      case isTrue hv => exact List.forall_mem_cons.2 ⟨hv, ih hs⟩
      case isFalse => cases h

/-- What is split off last is a name, and nothing but void pieces is behind it. -/
theorem eq_append_of_splitLast? (h : splitLast? ps = some (front, name)) :
    isVoid name = false ∧ ∃ voids, ps = front ++ name :: voids ∧ ∀ v ∈ voids, isVoid v = true := by
  induction ps generalizing front with
  | nil => cases h
  | cons piece rest ih =>
    rw [splitLast?] at h
    split at h
    case h_1 front' name' hs =>
      obtain ⟨rfl, rfl⟩ := Prod.mk.inj (Option.some.inj h)
      obtain ⟨hn, voids, rfl, hv⟩ := ih hs
      exact ⟨hn, voids, rfl, hv⟩
    case h_2 hs =>
      split at h
      case isTrue => cases h
      case isFalse hn =>
        obtain ⟨rfl, rfl⟩ := Prod.mk.inj (Option.some.inj h)
        exact ⟨by simpa using hn, rest, rfl, isVoid_of_splitLast? hs⟩

/-- A path without a last name leads through no names. -/
theorem names_of_splitLast?_eq_none (h : splitLast? ps = none) : names ⟨ps⟩ = [] := by
  simpa [names] using isVoid_of_splitLast? h

/-- A path with a last name leads through it behind the others, from where the others start. -/
theorem names_of_splitLast?_eq_some (h : splitLast? ps = some (front, name)) :
    names ⟨ps⟩ = names ⟨front⟩ ++ [name] ∧ isAbsolute ⟨ps⟩ = isAbsolute ⟨front ++ [""]⟩ := by
  obtain ⟨hn, voids, rfl, hv⟩ := eq_append_of_splitLast? h
  refine ⟨?_, ?_⟩
  · simpa [names, hn] using hv
  · cases front with
    | nil =>
      have named : name ≠ "" := by
        rintro rfl
        cases hn
      simp [isAbsolute, named]
    | cons piece front => cases front <;> by_cases hp : piece = "" <;> simp [isAbsolute, hp]

theorem withEnding_append_singleton (h : isVoid name = false) :
    withEnding ⟨front ++ [name]⟩ ending = ⟨front ++ [nameWithEnding name ending]⟩ := by
  rw [withEnding, splitLast?_append_singleton front h]

theorem parent?_append_singleton (h : isVoid name = false) :
    parent? ⟨front ++ [name]⟩ = some ⟨front ++ [""]⟩ := by
  rw [parent?, splitLast?_append_singleton front h, Option.map_some]

theorem names_parent (front : List String) : names ⟨front ++ [""]⟩ = names ⟨front⟩ := by
  simp [names, isVoid]

theorem size_append_singleton (front : List String) (name : String) :
    size ⟨front ++ [name]⟩ = size ⟨front⟩ + (name.utf8ByteSize + 1) := by
  induction front with
  | nil => simp [size]
  | cons piece front ih =>
    simp only [size, List.cons_append, List.foldr_cons] at ih ⊢
    omega

/-- The folder around has a shorter path. -/
theorem fits_parent (h : fits ⟨front ++ [name]⟩ = true) : fits ⟨front ++ [""]⟩ = true := by
  have void : "".utf8ByteSize = 0 := rfl
  simp only [fits, size_append_singleton, decide_eq_true_eq] at h ⊢
  omega

/-! ## Endings -/

theorem length_dot : ".".length = 1 := rfl

/-- The stem of a name is what stands in front of its last dot. -/
theorem stem_append {front ending : String} (hf : front ≠ "") (he : '.' ∉ ending.toList) :
    stem (front ++ "." ++ ending) = front := by
  have chars : (front ++ "." ++ ending).toList.reverse =
      ending.toList.reverse ++ '.' :: front.toList.reverse := by simp
  have passed : ∀ c ∈ ending.toList.reverse, decide (c ≠ '.') = true := by
    intro c hc
    rw [decide_eq_true_eq]
    rintro rfl
    exact he (List.mem_reverse.1 hc)
  rw [stem, chars, List.dropWhile_append_of_pos passed,
    List.dropWhile_cons_of_neg (by simp)]
  split
  case h_1 h => cases h
  case h_2 h => exact absurd (List.cons.inj h).2 (by simpa using hf)
  case h_3 h => rw [← (List.cons.inj h).2, List.reverse_reverse, String.ofList_toList]

/-- A name that is given an ending of two parts is another name than before. -/
theorem nameWithEnding_ne {first last : String} (hl : '.' ∉ last.toList)
    (hn : nameWithEnding name (first ++ "." ++ last) ≠ "..") :
    nameWithEnding name (first ++ "." ++ last) ≠ name := by
  intro h
  have other : stem name ≠ "." := by
    intro hs
    exact hn (by rw [nameWithEnding, if_pos hs])
  rw [nameWithEnding, if_neg other, ← String.append_assoc, ← String.append_assoc] at h
  have longer : stem name = stem name ++ "." ++ first := by
    refine (congrArg stem h).symm.trans (stem_append (fun he => ?_) hl)
    simpa using congrArg String.length he
  have size := congrArg String.length longer
  simp only [String.length_append, length_dot] at size
  omega

theorem isVoid_nameWithEnding (name : String) (he : ending ≠ "") :
    isVoid (nameWithEnding name ending) = false := by
  have some : ending.length ≠ 0 := fun h => he (String.length_eq_zero_iff.1 h)
  have size : (stem name ++ "." ++ ending).length = (stem name).length + 1 + ending.length := by
    rw [String.length_append, String.length_append, length_dot]
  rw [nameWithEnding]
  split
  case isTrue => decide
  case isFalse =>
    simp only [isVoid, Bool.or_eq_false_iff, decide_eq_false_iff_not]
    constructor
    · intro h
      rw [h, String.length_empty] at size
      omega
    · intro h
      rw [h, length_dot] at size
      omega

end ReadableTrace.Files.Path
