import ReadableTrace.Text.Decimal
import ReadableTrace.Text.Hex
import ReadableTrace.Yaml.Cursor

/-!
# Scalars

A scalar is written plain, between single or double quotes, or as a block of lines. Each reader
takes the characters left and gives the text with the place behind it. Line breaks within a scalar
are folded: `Gap` holds the blanks and breaks since the last word until it is known what they mean.
-/

namespace ReadableTrace.Yaml

/-- How a scalar is written. -/
inductive Form
  | plain
  /-- Between single or double quotes. -/
  | quoted
  /-- As a block whose line breaks are kept. -/
  | literal
  /-- As a block whose lines are joined. -/
  | folded
  deriving DecidableEq

/-- Blanks and line breaks between two words. -/
inductive Gap
  /-- Blanks on one line. -/
  | blanks (text : List Char)
  /-- Line breaks: the first, unless it is escaped, and the others. Blanks around them are lost. -/
  | lines (first : Option Char) (more : List Char)

namespace Gap

/-- No gap. -/
def none : Gap := blanks []

/-- A gap with one more blank. -/
def addBlank (c : Char) : Gap → Gap
  | blanks text => blanks (text ++ [c])
  | lines first more => lines first more

/-- A gap with one more line break. -/
def addBreak (c : Char) : Gap → Gap
  | blanks _ => lines (some c) []
  | lines first more => lines first (more ++ [c])

/-- Whether the gap holds a line break. -/
def isBroken : Gap → Bool
  | blanks _ => false
  | lines _ _ => true

/-- Whether there is no gap. -/
def isNone : Gap → Bool
  | blanks text => text.isEmpty
  | lines _ _ => false

/-- What a gap stands for: blanks for themselves, one line break for a blank, and several for all
but the first. -/
def text : Gap → List Char
  | blanks text => text
  | lines (some '\n') [] => [' ']
  | lines (some '\n') more => more
  | lines (some c) more => c :: more
  | lines Option.none more => more

end Gap

/-! ## Quoted scalars -/

/-- The character behind a backslash that stands for another. -/
def escaped? : Char → Option Char
  | '0' => some '\x00'
  | 'a' => some '\x07'
  | 'b' => some '\x08'
  | 't' => some '\t'
  | '\t' => some '\t'
  | 'n' => some '\n'
  | 'v' => some '\x0b'
  | 'f' => some '\x0c'
  | 'r' => some '\r'
  | 'e' => some '\x1b'
  | ' ' => some ' '
  | '"' => some '"'
  | '/' => some '/'
  | '\\' => some '\\'
  | 'N' => some '\u0085'
  | '_' => some '\u00A0'
  | 'L' => some '\u2028'
  | 'P' => some '\u2029'
  | _ => none

/-- The character of a code point in hexadecimal. -/
def codePoint? (digits : List Char) : Option Char :=
  (Hex.value? digits).bind fun n => if n.isValidChar then some (Char.ofNat n) else none

/-- Puts a text in front of what a reader gave. -/
def push (front : List Char) (read : Option (List Char × Cursor)) : Option (List Char × Cursor) :=
  read.map fun (text, cur) => (front ++ text, cur)

/-- A scalar between double quotes, from behind the opening one or from behind a gap. -/
def doubleQuoted (column line : Nat) (gap : Gap) : List Char → Option (List Char × Cursor)
  | [] => none
  | '\\' :: 'x' :: a :: b :: r =>
    match codePoint? [a, b] with
    | some c => push (gap.text ++ [c]) (doubleQuoted (column + 4) line .none r)
    | none => none
  | '\\' :: 'u' :: a :: b :: c :: d :: r =>
    match codePoint? [a, b, c, d] with
    | some c => push (gap.text ++ [c]) (doubleQuoted (column + 6) line .none r)
    | none => none
  | '\\' :: 'U' :: a :: b :: c :: d :: e :: f :: g :: h :: r =>
    match codePoint? [a, b, c, d, e, f, g, h] with
    | some c => push (gap.text ++ [c]) (doubleQuoted (column + 10) line .none r)
    | none => none
  | '\\' :: c :: r =>
    if isBreak c then push gap.text (doubleQuoted 0 (line + 1) (.lines none []) r)
    else
      match escaped? c with
      | some c => push (gap.text ++ [c]) (doubleQuoted (column + 2) line .none r)
      | none => none
  | c :: r =>
    if isBreak c then doubleQuoted 0 (line + 1) (gap.addBreak c) r
    else if isBlank c then doubleQuoted (column + 1) line (gap.addBlank c) r
    else if column = 0 && atMarker (c :: r) then none
    else if c = '"' then some (gap.text, ⟨r, column + 1, line, false⟩)
    else if c = '\\' then none
    else push (gap.text ++ [c]) (doubleQuoted (column + 1) line .none r)

/-- A scalar between single quotes, from behind the opening one or from behind a gap. A quote that
is written twice stands for one. -/
def singleQuoted (column line : Nat) (gap : Gap) : List Char → Option (List Char × Cursor)
  | [] => none
  | '\'' :: '\'' :: r => push (gap.text ++ ['\'']) (singleQuoted (column + 2) line .none r)
  | c :: r =>
    if isBreak c then singleQuoted 0 (line + 1) (gap.addBreak c) r
    else if isBlank c then singleQuoted (column + 1) line (gap.addBlank c) r
    else if column = 0 && atMarker (c :: r) then none
    else if c = '\'' then some (gap.text, ⟨r, column + 1, line, false⟩)
    else push (gap.text ++ [c]) (singleQuoted (column + 1) line .none r)

/-! ## Plain scalars -/

/-- Characters with a meaning of their own at the beginning of a token. -/
def isIndicator (c : Char) : Bool :=
  "-?:,[]\x7b\x7d#&*!|>'\"%@`".toList.contains c

/-- Characters that divide the parts of a list in brackets or a mapping in braces. -/
def isFlowIndicator (c : Char) : Bool := ",[]\x7b\x7d".toList.contains c

/-- Whether a plain scalar may begin with these characters. -/
def startsPlain (inFlow : Bool) : List Char → Bool
  | [] => false
  | c :: r =>
    if isIndicator c then
      (c = '-' && !atBlank r) || (!inFlow && (c = '?' || c = ':') && !atBlank r)
    else !(isBlank c || isBreak c)

/-- Whether a plain scalar ends in front of these characters. -/
def endsPlain (inFlow : Bool) (c : Char) (r : List Char) : Bool :=
  (c = ':' && atBlank r) || (inFlow && isFlowIndicator c)

/-- Whether a colon stands in front of what can neither belong to a plain scalar nor be a value. -/
def isStrayColon (inFlow : Bool) (c : Char) : List Char → Bool
  | d :: _ => inFlow && c = ':' && (isFlowIndicator d || d = '?')
  | [] => false

/-- A plain scalar. Outside of brackets and braces its further lines begin in column `least` or
behind. The place behind it is that of the next token but for comments. -/
def plain (inFlow : Bool) (least : Nat) (column line : Nat) (gap : Gap) :
    List Char → Option (List Char × Cursor)
  | [] => some ([], ⟨[], column, line, gap.isBroken⟩)
  | c :: r =>
    if isBreak c then plain inFlow least 0 (line + 1) (gap.addBreak c) r
    else if isBlank c then
      if c = '\t' && gap.isBroken && column < least then none
      else plain inFlow least (column + 1) line (gap.addBlank c) r
    else if (!inFlow && gap.isBroken && column < least)
        || (!gap.isNone && (c = '#' || (column = 0 && atMarker (c :: r)))) then
      some ([], ⟨c :: r, column, line, gap.isBroken⟩)
    else if isStrayColon inFlow c r then none
    else if endsPlain inFlow c r then some ([], ⟨c :: r, column, line, gap.isBroken⟩)
    else push (gap.text ++ [c]) (plain inFlow least (column + 1) line .none r)

/-! ## Blocks of lines -/

/-- What is done with the line breaks at the end of a block. -/
inductive Chomping
  /-- All are dropped. -/
  | strip
  /-- The first is kept. -/
  | clip
  /-- All are kept. -/
  | keep
  deriving DecidableEq

/-- What the first line of a block says. -/
structure BlockHeader where
  /-- Whether line breaks are kept as they are. -/
  isLiteral : Bool
  chomping : Chomping
  /-- By how many columns the lines are indented more than the block around. -/
  increment : Option Nat

/-- The marks behind the bar or angle of a block: how it ends and how it is indented, in either
order and each at most once. -/
def blockMarks (isLiteral : Bool) : List Char → BlockHeader × Nat
  | '+' :: d :: _ =>
    if '1' ≤ d && d ≤ '9' then (⟨isLiteral, .keep, some (Decimal.digitValue d)⟩, 2)
    else (⟨isLiteral, .keep, none⟩, 1)
  | '-' :: d :: _ =>
    if '1' ≤ d && d ≤ '9' then (⟨isLiteral, .strip, some (Decimal.digitValue d)⟩, 2)
    else (⟨isLiteral, .strip, none⟩, 1)
  | ['+'] => (⟨isLiteral, .keep, none⟩, 1)
  | ['-'] => (⟨isLiteral, .strip, none⟩, 1)
  | d :: r =>
    if '1' ≤ d && d ≤ '9' then
      match r with
      | '+' :: _ => (⟨isLiteral, .keep, some (Decimal.digitValue d)⟩, 2)
      | '-' :: _ => (⟨isLiteral, .strip, some (Decimal.digitValue d)⟩, 2)
      | _ => (⟨isLiteral, .clip, some (Decimal.digitValue d)⟩, 1)
    else (⟨isLiteral, .clip, none⟩, 0)
  | [] => (⟨isLiteral, .clip, none⟩, 0)

/-- The widest indentation of the lines up to the first that is not empty. A tab may not stand in
front of that line's text. -/
def widestIndent (column widest : Nat) : List Char → Option Nat
  | [] => some widest
  | c :: r =>
    if c = ' ' then widestIndent (column + 1) (max widest (column + 1)) r
    else if isBreak c then widestIndent 0 widest r
    else if c = '\t' then none
    else some widest

/-- The end of a block, by the break behind its last line and those after. -/
def chomped (h : BlockHeader) (first more : List Char) : List Char :=
  match h.chomping with
  | .strip => []
  | .clip => first
  | .keep => first ++ more

/-- What the breaks between two lines of a block stand for. In a folded block one break between
lines that do not begin with a blank stands for a blank, and of several the first is dropped. -/
def joined (h : BlockHeader) (first more : List Char) (afterBlank beforeBlank : Bool) : List Char :=
  if !h.isLiteral && first.head? = some '\n' && !afterBlank && !beforeBlank then
    if more.isEmpty then [' '] else more
  else first ++ more

/-- The lines of a block, indented by `indent`. Between two lines `first` is the break behind the
earlier one, `more` are the breaks after it and `column` is how far the indentation has been taken
off; `wasBlank` says whether the earlier line began with a blank. -/
def blockLines (h : BlockHeader) (indent : Nat) :
    (inLine wasBlank : Bool) → (first more : List Char) → (column line : Nat) →
      List Char → Option (List Char × Cursor)
  | _, _, first, more, column, line, [] => some (chomped h first more, ⟨[], column, line, true⟩)
  | true, wasBlank, _, _, column, line, c :: r =>
    if isBreak c then blockLines h indent false wasBlank [c] [] 0 (line + 1) r
    else push [c] (blockLines h indent true wasBlank [] [] (column + 1) line r)
  | false, wasBlank, first, more, column, line, c :: r =>
    if isBreak c then blockLines h indent false wasBlank first (more ++ [c]) 0 (line + 1) r
    else if column < indent then
      if c = ' ' then blockLines h indent false wasBlank first more (column + 1) line r
      else if c = '\t' then none
      else some (chomped h first more, ⟨c :: r, column, line, true⟩)
    else
      push (joined h first more wasBlank (isBlank c) ++ [c])
        (blockLines h indent true (isBlank c) [] [] (column + 1) line r)

/-- The rest of the first line of a block, which may only hold a comment; gives what follows the
line. -/
def restOfHeader (inComment : Bool) : List Char → Option (List Char)
  | [] => some []
  | c :: r =>
    if isBreak c then some r
    else if inComment || isBlank c then restOfHeader inComment r
    else if c = '#' then restOfHeader true r
    else none

/-- A block of lines, from behind its bar or angle. Without an increment the widest indentation of
the first lines counts, which is at least `least` and not zero. -/
def block (isLiteral : Bool) (least line : Nat) (cs : List Char) : Option (List Char × Cursor) := do
  let (h, n) := blockMarks isLiteral cs
  let lines ← restOfHeader false (cs.drop n)
  let indent ← (match h.increment with
    | some d => some (least - 1 + d)
    | none => (widestIndent 0 0 lines).map fun w => max (max w least) 1)
  blockLines h indent false false [] [] 0 (line + 1) lines

end ReadableTrace.Yaml
