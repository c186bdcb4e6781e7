import ReadableTrace.Text.Hex
import ReadableTrace.Yaml.Scalar

/-!
# Names, tags and directives

A node may have a name, by which it is meant again elsewhere, and a tag, which says what kind of
value it is. A tag is written in full or as a handle and the rest; which beginning a handle stands
for, a directive in front of the document says. A tag is a sequence of bytes, since its escapes may
spell any, and ends in front of a zero.
-/

namespace ReadableTrace.Yaml

/-- What kind of value a node is. -/
structure Tag where
  bytes : List UInt8
  deriving DecidableEq

/-- A tag as it is written. -/
structure TagMark where
  /-- The handle, which is empty for a tag that is written in full. -/
  handle : String
  /-- What stands behind the handle. -/
  ending : List UInt8
  deriving DecidableEq

/-- What is said in front of a document. -/
inductive Directive
  /-- The version of the language, which must be one that is known. -/
  | version
  /-- The beginning of the tags that are written with a handle. -/
  | handle (handle : String) (beginning : List UInt8)
  deriving DecidableEq

/-- The beginning of tags, by their handle. -/
abbrev Handles := List (String × List UInt8)

/-- The bytes of a text. -/
def bytesOf (s : String) : List UInt8 := s.toUTF8.toList

/-- The handles that need no directive. -/
def standardHandles : Handles := [("!", bytesOf "!"), ("!!", bytesOf "tag:yaml.org,2002:")]

namespace Tag

/-- The tag that is an exclamation mark alone, so its word is empty. -/
def bare : Tag := ⟨bytesOf "!"⟩

/-- The tag of truth values. -/
def truth : Tag := ⟨bytesOf "tag:yaml.org,2002:bool"⟩

/-- The word of a tag that begins with an exclamation mark. -/
def word? (t : Tag) : Option String :=
  match t.bytes with
  | [] => none
  | b :: rest => if bare.bytes = [b] then String.fromUTF8? ⟨rest.toArray⟩ else none

/-- The tag that is meant, if its handle is known. -/
def ofMark? (handles : Handles) (mark : TagMark) : Option Tag :=
  if mark.handle.isEmpty then some ⟨mark.ending⟩
  else (handles.lookup mark.handle).map fun beginning => ⟨beginning ++ mark.ending⟩

end Tag

/-! ## Characters -/

/-- The characters of names and handles. -/
def isNameChar (c : Char) : Bool := c.isAlphanum || c = '-' || c = '_'

/-- The characters of tags. Some only occur in tags that are written in full and in directives. -/
def isTagChar (isFull : Bool) (c : Char) : Bool :=
  isNameChar c || ";/?:@&=+$.%!~*'()".toList.contains c || (isFull && ",[]".toList.contains c)

/-- How many bytes of the same character follow its first byte. -/
def following? (byte : Nat) : Option Nat :=
  if byte < 0x80 then some 0
  else if byte < 0xC0 then none
  else if byte < 0xE0 then some 1
  else if byte < 0xF0 then some 2
  else if byte < 0xF8 then some 3
  else none

/-- The bytes that the characters of a tag stand for. A percent sign begins an escape; the first
`due` bytes must be escaped and go on with a character. -/
def tagBytes? : Nat → List Char → Option (List UInt8)
  | due, '%' :: a :: b :: r => do
    let byte ← Hex.value? [a, b]
    let due ← (match due with
      | 0 => following? byte
      | due + 1 => if byte / 64 = 2 then some due else none)
    (tagBytes? due r).map (byte.toUInt8 :: ·)
  | 0, [] => some []
  | 0, c :: r => if c = '%' then none else (tagBytes? 0 r).map (c.toNat.toUInt8 :: ·)
  | _ + 1, _ => none

/-- The part of a tag at the beginning of a text, and how many characters it has. -/
def tagPart? (isFull : Bool) (cs : List Char) : Option (List UInt8 × Nat) :=
  let part := cs.takeWhile (isTagChar isFull)
  (tagBytes? 0 part).map fun bytes => (bytes.takeWhile (· ≠ 0), part.length)

/-! ## Reading -/

/-- The name behind an ampersand or asterisk. -/
def nameMark? (cur : Cursor) : Option (String × Cursor) :=
  let name := cur.rest.tail.takeWhile isNameChar
  let next := cur.advance (name.length + 1) false
  let isEnded := match next.rest with
    | [] => true
    | c :: r => atBlank (c :: r) || "?:,]\x7d%@\x60".toList.contains c
  if name.isEmpty || !isEnded then none else some (String.ofList name, next)

/-- A tag up to its last character. -/
def tagBody? (cur : Cursor) : Option (TagMark × Cursor) :=
  match cur.rest.tail with
  | '<' :: r => do
    let (bytes, n) ← tagPart? true r
    if n = 0 || (r.drop n).head? ≠ some '>' then none
    else some (⟨"", bytes⟩, cur.advance (n + 3) false)
  | r => do
    let name := r.takeWhile isNameChar
    match r.drop name.length with
    | '!' :: r =>
      let (bytes, n) ← tagPart? false r
      let mark := ⟨String.ofList ('!' :: name ++ ['!']), bytes⟩
      if n = 0 then none else some (mark, cur.advance (name.length + n + 2) false)
    | _ =>
      let (bytes, n) ← tagPart? false r
      let mark := if bytes.isEmpty then ⟨"", Tag.bare.bytes⟩ else ⟨"!", bytes⟩
      some (mark, cur.advance (n + 1) false)

/-- A tag. Behind it stands a blank, or a comma inside of brackets or braces. -/
def tagMark? (inFlow : Bool) (cur : Cursor) : Option (TagMark × Cursor) := do
  let (mark, next) ← tagBody? cur
  if atBlank next.rest || (inFlow && next.rest.head? = some ',') then some (mark, next) else none

/-- How many digits a part of a version may have. -/
def maxVersionDigits : Nat := 9

/-- A part of a version, and what stands behind it. -/
def versionPart? (cs : List Char) : Option (Nat × List Char) :=
  let digits := cs.takeWhile Decimal.isDigit
  if digits.isEmpty || maxVersionDigits < digits.length then none
  else some (Decimal.value digits, cs.drop digits.length)

/-- What a directive for the version says, and what stands behind it. -/
def versionDirective? (cs : List Char) : Option (Directive × List Char) := do
  let (major, r) ← versionPart? (cs.dropWhile isBlank)
  match r with
  | '.' :: r =>
    let (minor, r) ← versionPart? r
    if major = 1 && (minor = 1 || minor = 2) then some (.version, r) else none
  | _ => none

/-- What a directive for a handle says, and what stands behind it. -/
def handleDirective? (cs : List Char) : Option (Directive × List Char) :=
  match cs.dropWhile isBlank with
  | '!' :: r => do
    let name := r.takeWhile isNameChar
    let (handle, r) ← (match r.drop name.length with
      | '!' :: r => some (String.ofList ('!' :: name ++ ['!']), r)
      | r => if name.isEmpty then some ("!", r) else none)
    let beginning := r.dropWhile isBlank
    let (bytes, n) ← tagPart? true beginning
    let r' := beginning.drop n
    if beginning.length < r.length && n ≠ 0 && atBlank r' then some (.handle handle bytes, r')
    else none
  | _ => none

/-- A directive with the rest of its line. -/
def directive? (cur : Cursor) : Option (Directive × Cursor) := do
  let text := cur.rest.tail
  let name := text.takeWhile isNameChar
  let r := text.drop name.length
  if !atBlank r then none
  else
    let (directive, r) ← (if name = "YAML".toList then versionDirective? r
      else if name = "TAG".toList then handleDirective? r
      else none)
    some (directive, ⟨← restOfHeader false r, 0, cur.line + 1, false⟩)

end ReadableTrace.Yaml
