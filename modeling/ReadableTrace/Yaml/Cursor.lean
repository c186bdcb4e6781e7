/-!
# Places in a document

A cursor is what is left of a YAML document together with where that begins: the column, the line,
and whether a key may start there. `Cursor.toToken` passes over blanks, comments and line breaks.
-/

namespace ReadableTrace.Yaml

/-- What is left of a document, and where it begins. -/
structure Cursor where
  rest : List Char
  column : Nat
  line : Nat
  /-- Whether a key may start here: at the beginning of a line and behind a dash it may, behind
  another key it may not. -/
  keyAllowed : Bool

/-- Blanks within a line. -/
def isBlank (c : Char) : Bool := c = ' ' || c = '\t'

/-- Characters that end a line, once line breaks are unified. -/
def isBreak (c : Char) : Bool := c = '\n' || c = '\u2028' || c = '\u2029'

/-- A document in which the line breaks of other systems are line feeds. Line and paragraph
separators stay as they are. -/
def unifyBreaks : List Char → List Char
  | [] => []
  | '\r' :: '\n' :: r => '\n' :: unifyBreaks r
  | c :: r => (if c = '\r' ∨ c = '\u0085' then '\n' else c) :: unifyBreaks r

/-- Whether a text begins with a blank or a line break, or is at its end. -/
def atBlank : List Char → Bool
  | [] => true
  | c :: _ => isBlank c || isBreak c

/-- Whether a text begins with three dashes or three dots that stand alone. -/
def atMarker : List Char → Bool
  | '-' :: '-' :: '-' :: r => atBlank r
  | '.' :: '.' :: '.' :: r => atBlank r
  | _ => false

/-- Whether a character may occur in a document at all, once line breaks are unified. -/
def isAllowed (c : Char) : Bool :=
  c = '\t' || c = '\n' || (' ' ≤ c && c ≤ '~') || ('\u00A0' ≤ c && c.toNat ≤ 0xFFFD)
    || 0x10000 ≤ c.toNat

/-- The mark that may stand at the beginning of a document or line and means nothing. -/
def byteOrderMark : Char := '\uFEFF'

namespace Cursor

/-- Passes over `n` characters of the line. -/
def advance (cur : Cursor) (n : Nat) (keyAllowed : Bool) : Cursor :=
  ⟨cur.rest.drop n, cur.column + n, cur.line, keyAllowed⟩

/-- How many bytes there are up to a place behind on the same line. -/
def bytesTo (cur later : Cursor) : Nat :=
  (cur.rest.take (later.column - cur.column)).foldl (fun size c => size + c.utf8Size) 0

/-- Passes over what stands between tokens. Tabs do not count as blanks where a key may start, since
they would leave open in which column it starts. A byte order mark at the beginning of a line is
passed over once and takes up a column. -/
def skip (inFlow inComment : Bool) (column line : Nat) (keyAllowed : Bool) : List Char → Cursor
  | [] => ⟨[], column, line, keyAllowed⟩
  | c :: r =>
    if isBreak c then skip inFlow false 0 (line + 1) (keyAllowed || !inFlow) r
    else if inComment then skip inFlow true (column + 1) line keyAllowed r
    else if c = ' ' || (c = '\t' && (inFlow || !keyAllowed))
        || (c = byteOrderMark && column = 0) then
      skip inFlow false (column + 1) line keyAllowed r
    else if c = '#' then skip inFlow true (column + 1) line keyAllowed r
    else ⟨c :: r, column, line, keyAllowed⟩

/-- The next token. -/
def toToken (cur : Cursor) (inFlow : Bool) : Cursor :=
  skip inFlow false cur.column cur.line cur.keyAllowed cur.rest

/-- Whether a marker that begins or ends a document stands here. -/
def isAtMarker (cur : Cursor) : Bool := cur.column = 0 && atMarker cur.rest

end Cursor

end ReadableTrace.Yaml
