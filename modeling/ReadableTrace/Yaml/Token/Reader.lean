import ReadableTrace.Yaml.Token.Basic

/-!
# Reading tokens

`Token.ofChars?` takes a document apart. A `Lexer` holds what is left and what has been found. Only
a colon shows that what stands in front of it is a key: so the lexer remembers where a key may have
begun (`KeyStart`), and puts the token for the key in there once it meets the colon. A key ends on
the line where it begins and has at most 1024 bytes.

Names are numbered: a name gets the number of different names in front of it. A name that is given
again gets a number anew, which it then shares with the next new name.
-/

namespace ReadableTrace.Yaml

/-- Where a key may have begun. -/
structure KeyStart where
  place : Cursor
  /-- How many tokens stand in front. -/
  count : Nat
  /-- Whether nothing but a key can stand there. -/
  isRequired : Bool

/-- A document of which the beginning has been taken apart. -/
structure Lexer where
  cursor : Cursor
  /-- Where the lists and mappings begin that are open by indentation, the innermost first. -/
  columns : List Nat
  /-- Where a key may have begun inside of the innermost bracket or brace. -/
  keyStart : Option KeyStart
  /-- The same around each open bracket and brace, the innermost first. -/
  outer : List (Option KeyStart)
  /-- The numbers of the names. -/
  names : List (String × Nat)
  /-- The tokens, the last one first. -/
  tokens : List Token
  /-- How many tokens there are. -/
  count : Nat

namespace Lexer

/-- A document of which nothing has been taken apart. -/
def start (cs : List Char) : Lexer := ⟨⟨cs, 0, 0, true⟩, [], none, [], [], [], 0⟩

/-- Whether the cursor is inside of brackets or braces. -/
def inFlow (s : Lexer) : Bool := !s.outer.isEmpty

/-- The column behind which the innermost list or mapping goes on. -/
def least (s : Lexer) : Nat :=
  match s.columns with
  | [] => 0
  | column :: _ => column + 1

/-- Puts a token in front of the last `depth` ones. -/
def insert (s : Lexer) (depth : Nat) (t : Token) : Lexer :=
  { s with
    tokens := s.tokens.take depth ++ t :: s.tokens.drop depth
    count := s.count + 1 }

/-- Adds a token and goes on behind it. -/
def emit (s : Lexer) (t : Token) (next : Cursor) : Lexer :=
  { s with cursor := next, tokens := t :: s.tokens, count := s.count + 1 }

/-! ## Indentation -/

/-- Ends the innermost `n` lists and mappings that are open by indentation. Inside of brackets and
braces indentation means nothing. -/
def close (s : Lexer) (n : Nat) : Lexer :=
  if s.inFlow then s
  else
    { s with
      columns := s.columns.drop n
      tokens := List.replicate n .blockEnd ++ s.tokens
      count := s.count + n }

/-- Ends the lists and mappings that begin behind the column of the cursor. -/
def closeBehind (s : Lexer) : Lexer :=
  s.close (s.columns.takeWhile (s.cursor.column < ·)).length

/-- Ends all lists and mappings that are open by indentation. -/
def closeAll (s : Lexer) : Lexer := s.close s.columns.length

/-- Begins a list or mapping in a column, in front of the last `depth` tokens, unless one begins
there already. -/
def openBlock (s : Lexer) (column : Nat) (t : Token) (depth : Nat) : Lexer :=
  if s.inFlow || column < s.least then s
  else { s.insert depth t with columns := column :: s.columns }

/-! ## Keys -/

/-- How many bytes there may be from the beginning of a key to its colon. -/
def maxKeySize : Nat := 1024

/-- Gives up the key that may have begun. -/
def dropKey (s : Lexer) : Option Lexer :=
  match s.keyStart with
  | some k => if k.isRequired then none else some { s with keyStart := none }
  | none => some s

/-- Gives up the key that may have begun if the colon cannot be on its line any more, or is too far
away. -/
def dropStaleKey (s : Lexer) : Option Lexer :=
  match s.keyStart with
  | some k =>
    if k.place.line < s.cursor.line || maxKeySize < k.place.bytesTo s.cursor then s.dropKey
    else some s
  | none => some s

/-- Notes that a key may begin here. -/
def markKey (s : Lexer) : Option Lexer :=
  if s.cursor.keyAllowed then
    s.dropKey.map fun s =>
      { s with
        keyStart := some
          { place := s.cursor
            count := s.count
            isRequired := !s.inFlow && s.columns.head? = some s.cursor.column } }
  else some s

/-! ## Kinds of tokens -/

/-- A scalar that a reader gave. -/
def scalar (s : Lexer) (form : Form) (read : Option (List Char × Cursor)) : Option Lexer :=
  read.map fun (text, next) => s.emit (.scalar form (String.ofList text)) next

/-- A scalar that is quoted or plain. -/
def lineScalar (s : Lexer) : Option Lexer := do
  let s ← s.markKey
  let cur := s.cursor
  match cur.rest with
  | '"' :: r => s.scalar .quoted (doubleQuoted (cur.column + 1) cur.line .none r)
  | '\'' :: r => s.scalar .quoted (singleQuoted (cur.column + 1) cur.line .none r)
  | cs =>
    if startsPlain s.inFlow cs then
      s.scalar .plain (plain s.inFlow s.least cur.column cur.line .none cs)
    else none

/-- A scalar that is a block of lines. -/
def blockScalar (s : Lexer) (form : Form) : Option Lexer := do
  let s ← s.dropKey
  s.scalar form (block (form = .literal) s.least s.cursor.line s.cursor.rest.tail)

/-- A bracket or brace that opens. -/
def openFlow (s : Lexer) (t : Token) : Option Lexer :=
  s.markKey.map fun s =>
    { s.emit t (s.cursor.advance 1 true) with
      keyStart := none
      outer := s.keyStart :: s.outer }

/-- A bracket or brace that closes. -/
def closeFlow (s : Lexer) (t : Token) : Option Lexer :=
  s.dropKey.map fun s =>
    { s.emit t (s.cursor.advance 1 false) with
      keyStart := s.outer.head?.join
      outer := s.outer.tail }

/-- A comma. -/
def comma (s : Lexer) : Option Lexer :=
  s.dropKey.map fun s => s.emit .comma (s.cursor.advance 1 true)

/-- A dash in front of an item. -/
def dash (s : Lexer) : Option Lexer :=
  if s.inFlow || s.cursor.keyAllowed then
    (s.openBlock s.cursor.column .listStart 0).dropKey.map fun s =>
      s.emit .dash (s.cursor.advance 1 true)
  else none

/-- A question mark in front of a key. -/
def questionMark (s : Lexer) : Option Lexer :=
  if s.inFlow || s.cursor.keyAllowed then
    (s.openBlock s.cursor.column .mappingStart 0).dropKey.map fun s =>
      s.emit .key (s.cursor.advance 1 !s.inFlow)
  else none

/-- A colon in front of a value. What stands in front of it is a key if one may have begun. -/
def colon (s : Lexer) : Option Lexer :=
  match s.keyStart with
  | some k =>
    let depth := s.count - k.count
    let s := (s.insert depth .key).openBlock k.place.column .mappingStart (depth + 1)
    some { s.emit .value (s.cursor.advance 1 false) with keyStart := none }
  | none =>
    if s.inFlow then some (s.emit .value (s.cursor.advance 1 false))
    else if s.cursor.keyAllowed then
      some ((s.openBlock s.cursor.column .mappingStart 0).emit .value (s.cursor.advance 1 true))
    else none

/-- A name given to the next node. -/
def anchor (s : Lexer) : Option Lexer := do
  let s ← s.markKey
  let (name, next) ← nameMark? s.cursor
  let number := s.names.length
  some
    { s.emit (.anchor number) next with
      names := (name, number) :: s.names.filter (·.1 ≠ name) }

/-- A name that stands for a node in front. -/
def aliasOf (s : Lexer) : Option Lexer := do
  let s ← s.markKey
  let (name, next) ← nameMark? s.cursor
  let number ← s.names.lookup name
  some (s.emit (.aliasOf number) next)

/-- A tag. -/
def tag (s : Lexer) : Option Lexer := do
  let s ← s.markKey
  let (mark, next) ← tagMark? s.inFlow s.cursor
  some (s.emit (.tag mark) next)

/-- A marker that begins or ends a document. -/
def marker (s : Lexer) : Option Lexer :=
  let t : Token := if s.cursor.rest.head? = some '-' then .documentStart else .documentEnd
  s.closeAll.dropKey.map fun s => s.emit t (s.cursor.advance 3 false)

/-- A directive. -/
def directive (s : Lexer) : Option Lexer := do
  let s ← s.closeAll.dropKey
  let (d, next) ← directive? s.cursor
  some (s.emit (.directive d) next)

/-! ## Documents -/

/-- Whether an indicator stands alone, so that it is none of the characters of a plain scalar. -/
def isAlone (s : Lexer) (r : List Char) : Bool := s.inFlow || atBlank r

/-- Takes off the token at the cursor. -/
def next (s : Lexer) : Option Lexer :=
  if s.cursor.isAtMarker then s.marker
  else
    match s.cursor.rest with
    | '%' :: _ => if s.cursor.column = 0 then s.directive else none
    | '[' :: _ => s.openFlow .openBracket
    | '\x7b' :: _ => s.openFlow .openBrace
    | ']' :: _ => s.closeFlow .closeBracket
    | '\x7d' :: _ => s.closeFlow .closeBrace
    | ',' :: _ => s.comma
    | '*' :: _ => s.aliasOf
    | '&' :: _ => s.anchor
    | '!' :: _ => s.tag
    | '|' :: _ => if s.inFlow then none else s.blockScalar .literal
    | '>' :: _ => if s.inFlow then none else s.blockScalar .folded
    | '-' :: r => if atBlank r then s.dash else s.lineScalar
    | '?' :: r => if s.isAlone r then s.questionMark else s.lineScalar
    | ':' :: r => if s.isAlone r then s.colon else s.lineScalar
    | _ => s.lineScalar

/-- Takes off all tokens. Every call but the last takes up a character. -/
def run : Nat → Lexer → Option (List Token)
  | 0, _ => none
  | fuel + 1, s => do
    let s ← { s with cursor := s.cursor.toToken s.inFlow }.dropStaleKey
    if s.cursor.rest.isEmpty then s.closeAll.dropKey.map (·.tokens.reverse)
    else
      let s ← s.closeBehind.next
      run fuel s

end Lexer

/-- The tokens of a document, from unified line breaks. -/
def Token.ofChars? (cs : List Char) : Option (List Token) :=
  if cs.all isAllowed then (Lexer.start cs).run (cs.length + 1) else none

/-- The tokens of a document. -/
def Token.ofText? (text : String) : Option (List Token) := ofChars? (unifyBreaks text.toList)

end ReadableTrace.Yaml
