import ReadableTrace.Text.Hex
import ReadableTrace.Text.Printable

/-!
# Quoted text in messages

A message that quotes a text or the name of a file puts it between double quotes and escapes what
would not show: tab, carriage return, line feed and NUL by a letter, the double quote and the
backslash by a backslash, and every other unprintable character by its code point, as in `\u{3000}`.
-/

namespace ReadableTrace.Text

/-- How a quoted text shows a character. -/
def quoteChar (c : Char) : List Char :=
  if c = '\x00' then ['\\', '0']
  else if c = '\t' then ['\\', 't']
  else if c = '\r' then ['\\', 'r']
  else if c = '\n' then ['\\', 'n']
  else if c = '"' ∨ c = '\\' then ['\\', c]
  else if isPrintable c then [c]
  else ['\\', 'u', '\x7b'] ++ Hex.digits c.toNat ++ ['\x7d']

/-- A text between double quotes. -/
def quoted (s : String) : String := String.ofList ('"' :: s.toList.flatMap quoteChar ++ ['"'])

end ReadableTrace.Text
