import ReadableTrace.Json.Basic
import ReadableTrace.Text.Hex

/-!
# Writing JSON

`Json.pretty` puts every item and member on a line of its own and indents by two blanks. In a text,
quotes, backslashes and control characters are escaped and nothing else is.
-/

namespace ReadableTrace.Json

/-- How a text shows a character. -/
def escape (c : Char) : List Char :=
  if c = '"' then ['\\', '"']
  else if c = '\\' then ['\\', '\\']
  else if c = '\x08' then ['\\', 'b']
  else if c = '\x0c' then ['\\', 'f']
  else if c = '\n' then ['\\', 'n']
  else if c = '\r' then ['\\', 'r']
  else if c = '\t' then ['\\', 't']
  else if c.toNat < 0x20 then '\\' :: 'u' :: Hex.padded 4 c.toNat
  else [c]

/-- A text between quotes. -/
def quote (s : String) : List Char := '"' :: (s.toList.flatMap escape ++ ['"'])

/-- A line break and an indentation. -/
def newline (level : Nat) : List Char := '\n' :: List.replicate (2 * level) ' '

/-- A number. -/
def printNumber (n : Number) : List Char :=
  (if n.isNegative then ['-'] else []) ++ Decimal.digits n.whole
    ++ (if n.fraction.isEmpty then [] else '.' :: n.fraction)
    ++ (match n.exponent with
      | none => []
      | some e => 'e' :: (if e < 0 then ['-'] else []) ++ Decimal.digits e.natAbs)

mutual

/-- A value inside `level` lists and objects. -/
def print (level : Nat) : Json → List Char
  | .null => ['n', 'u', 'l', 'l']
  | .bool true => ['t', 'r', 'u', 'e']
  | .bool false => ['f', 'a', 'l', 's', 'e']
  | .number n => printNumber n
  | .text s => quote (s.getD "")
  | .list [] => ['[', ']']
  | .list (v :: rest) =>
    '[' :: newline (level + 1) ++ print (level + 1) v ++ printItems (level + 1) rest
      ++ newline level ++ [']']
  | .object [] => ['\x7b', '\x7d']
  | .object ((k, v) :: rest) =>
    '\x7b' :: newline (level + 1) ++ quote (k.getD "") ++ [':', ' '] ++ print (level + 1) v
      ++ printMembers (level + 1) rest ++ newline level ++ ['\x7d']

/-- Further items of a list. -/
def printItems (level : Nat) : List Json → List Char
  | [] => []
  | v :: rest => ',' :: newline level ++ print level v ++ printItems level rest

/-- Further members of an object. -/
def printMembers (level : Nat) : List (Option String × Json) → List Char
  | [] => []
  | (k, v) :: rest =>
    ',' :: newline level ++ quote (k.getD "") ++ [':', ' '] ++ print level v
      ++ printMembers level rest

end

/-- A value as text, over several lines. -/
def pretty (v : Json) : String := String.ofList (print 0 v)

end ReadableTrace.Json
