import ReadableTrace.Text.Ranges

/-!
# Blank text

White space is what the Unicode property White_Space lists, twenty-five characters in all. A text
is blank when it holds nothing else; the empty text is blank.
-/

namespace ReadableTrace.Text

/-- The property White_Space. -/
def whiteSpace : Ranges :=
  ⟨[(0x09, 0x0D), (0x20, 0x20), (0x85, 0x85), (0xA0, 0xA0), (0x1680, 0x1680), (0x2000, 0x200A),
    (0x2028, 0x2029), (0x202F, 0x202F), (0x205F, 0x205F), (0x3000, 0x3000)]⟩

/-- Whether a character is white space. -/
def isSpace (c : Char) : Bool := whiteSpace.covers c

/-- Whether a text holds nothing but white space. -/
def isBlank (s : String) : Bool := s.toList.all isSpace

/-- A text without the white space around it. -/
def trim (s : List Char) : List Char :=
  ((s.dropWhile isSpace).reverse.dropWhile isSpace).reverse

/-- A text that is there and not blank. -/
def nonBlank (s : Option String) : Option String := s.filter (!isBlank ·)

theorem isBlank_iff (s : String) : isBlank s = true ↔ ∀ c ∈ s.toList, isSpace c = true := by
  simp [isBlank]

@[simp] theorem isBlank_append {s t : String} : isBlank (s ++ t) = (isBlank s && isBlank t) := by
  simp [isBlank]

end ReadableTrace.Text
