import ReadableTrace.Settings.Basic
import ReadableTrace.Text.Hex

/-!
# Writing settings

`Settings.document` writes settings as a YAML mapping with one key on each line. Texts stand between
double quotes; of their characters those of ASCII from the blank to the tilde are written as they
are, but for the quote and the backslash, and all others by their code point.
-/

namespace ReadableTrace.Settings

/-- How a text shows a character. -/
def escape (c : Char) : List Char :=
  if c = '"' then ['\\', '"']
  else if c = '\\' then ['\\', '\\']
  else if c = '\n' then ['\\', 'n']
  else if c = '\r' then ['\\', 'r']
  else if c = '\t' then ['\\', 't']
  else if ' ' ≤ c ∧ c ≤ '~' then [c]
  else '\\' :: 'U' :: Hex.padded 8 c.toNat

/-- A text between double quotes. -/
def quote (s : String) : List Char := '"' :: (s.toList.flatMap escape ++ ['"'])

/-- A line with a key and its value. -/
def entry (key : String) (value : List Char) : List Char :=
  key.toList ++ [':', ' '] ++ value ++ ['\n']

/-- Settings as a YAML document. -/
def document (s : Settings) : String :=
  String.ofList <|
    entry "frame_prefix" (quote s.frameLead)
      ++ entry "line_separator" (quote s.separator)
      ++ entry "include_line_info" (flag s.showLocation).toList
      ++ entry "show_hidden_frames" (flag s.showHidden).toList
      ++ entry "system_namespace_prefix" (quote s.frameworkLead)
      ++ entry "log_level" s.logFilter.word.toList

end ReadableTrace.Settings
