import ReadableTrace.Settings.Basic
import ReadableTrace.Yaml.Node.Reader

/-!
# Reading settings

`Settings.ofText` reads settings from YAML: a mapping whose known keys may be left out, but not
repeated, and whose other keys are ignored. An empty document stands for the usual settings.
-/

namespace ReadableTrace.Settings

open Yaml

/-- A text. -/
def readText : Node → Option String
  | .scalar _ _ text => some text
  | _ => none

/-- Whether a scalar may be read as a truth value: a plain one may, and a block if it is tagged as
one. -/
def mayBeFlag (marks : Marks) (form : Form) : Bool :=
  form = .plain || (form = .literal && marks.tag = some .truth)

/-- A truth value. -/
def readFlag : Node → Option Bool
  | .scalar marks form text =>
    if !mayBeFlag marks form then none
    else if text = "true" ∨ text = "True" ∨ text = "TRUE" then some true
    else if text = "false" ∨ text = "False" ∨ text = "FALSE" then some false
    else none
  | _ => none

/-- Whether a scalar stands for the absence of a value, which only a plain one may. -/
def isNull (form : Form) (text : String) : Bool :=
  form = .plain && (text.isEmpty || ["null", "Null", "NULL", "~"].contains text)

/-- What is logged: the word of the tag, of which there must be no value, or the scalar itself. -/
def readFilter : Node → Option Log.Filter
  | .scalar marks form text =>
    match marks.tag.bind Tag.word? with
    | some word => if isNull form text then Log.Filter.ofWord? word else none
    | none => Log.Filter.ofWord? text
  | _ => none

/-- The keys of settings. -/
def keys : List String :=
  ["frame_prefix", "line_separator", "include_line_info", "show_hidden_frames",
    "system_namespace_prefix", "log_level"]

/-- Settings with the value of one key read. -/
def withEntry (s : Settings) (key : String) (value : Node) : Option Settings :=
  match key with
  | "frame_prefix" => (readText value).map fun v => { s with frameLead := v }
  | "line_separator" => (readText value).map fun v => { s with separator := v }
  | "include_line_info" => (readFlag value).map fun v => { s with showLocation := v }
  | "show_hidden_frames" => (readFlag value).map fun v => { s with showHidden := v }
  | "system_namespace_prefix" => (readText value).map fun v => { s with frameworkLead := v }
  | "log_level" => (readFilter value).map fun v => { s with logFilter := v }
  | _ => some s

/-- Settings with the entries of a mapping read. The keys in `seen` may not come again. -/
def withEntries (s : Settings) (seen : List String) : List (Node × Node) → Option Settings
  | [] => some s
  | (.scalar _ _ key, value) :: rest =>
    if seen.contains key then none
    else do
      let s ← withEntry s key value
      withEntries s (if keys.contains key then key :: seen else seen) rest
  | _ :: _ => none

/-- The settings of a document. -/
def ofNode? : Option Node → Option Settings
  | none => some standard
  | some (.mapping marks entries) =>
    let root : Node := .mapping marks entries
    withEntries standard [] (entries.map fun (k, v) => (root.follow k, root.follow v))
  | some (.scalar _ .plain "") => some standard
  | _ => none

/-- The settings that a text holds. -/
def ofText (text : String) : Except Fault Settings :=
  match (Node.ofText? text).bind ofNode? with
  | none => .error .malformed
  | some s =>
    match s.flaw? with
    | some flaw => .error (.flawed flaw)
    | none => .ok s

end ReadableTrace.Settings
