import ReadableTrace.Yaml.Tag

/-!
# Tokens

The words and marks of a YAML document in their order. Where a list or mapping is written by
indentation alone, tokens stand for its beginning and its end, and another stands in front of every
key, whether a question mark is written there or not.
-/

namespace ReadableTrace.Yaml

/-- A part of a document that has no parts of its own. -/
inductive Token
  | directive (d : Directive)
  | documentStart
  | documentEnd
  /-- The beginning of a list that is written by indentation. -/
  | listStart
  /-- The beginning of a mapping that is written by indentation. -/
  | mappingStart
  /-- The end of a list or mapping that is written by indentation. -/
  | blockEnd
  | openBracket
  | closeBracket
  | openBrace
  | closeBrace
  | dash
  | comma
  /-- What stands in front of a key. -/
  | key
  /-- The colon in front of a value. -/
  | value
  /-- A name given to the node behind it, by number. -/
  | anchor (number : Nat)
  /-- A name that stands for a node, by number. -/
  | aliasOf (number : Nat)
  | tag (mark : TagMark)
  | scalar (form : Form) (text : String)
  deriving DecidableEq

end ReadableTrace.Yaml
