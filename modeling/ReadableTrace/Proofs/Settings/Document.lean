import ReadableTrace.Proofs.Yaml.Mapping
import ReadableTrace.Settings.Printer
import ReadableTrace.Settings.Reader
import Mathlib.Tactic.SplitIfs

/-!
# Settings are read back

`Settings.Written s text` says that the text is a YAML document for the settings: a line for each
key, in the order of the settings, whose value is spelled in any of the ways that YAML has for a
text. Which of them is taken for which text is left open. Whichever it is, settings without a flaw
are read back (`ofText_of_written`). The documents that `Settings.document` makes are such texts
(`written_document`).
-/

namespace ReadableTrace.Settings

open Yaml

/-- The keys of settings with the texts that stand for their values. -/
def texts (s : Settings) : List (String × String) :=
  [("frame_prefix", s.frameLead), ("line_separator", s.separator),
    ("include_line_info", flag s.showLocation), ("show_hidden_frames", flag s.showHidden),
    ("system_namespace_prefix", s.frameworkLead), ("log_level", s.logFilter.word)]

/-- The keys whose values are truth values, which have to be written plain. -/
def flagKeys : List String := ["include_line_info", "show_hidden_frames"]

/-- The text is a document for the settings. -/
def Written (s : Settings) (text : String) : Prop :=
  ∃ es : List Entry, es.map (fun e => (String.ofList e.key, String.ofList e.text)) = s.texts ∧
    (∀ e ∈ es, Spelled e.form e.text e.written) ∧
    (∀ e ∈ es, String.ofList e.key ∈ flagKeys → e.form = .plain) ∧
    text.toList = es.flatMap Entry.chars ∧ text.toList.all isAllowed = true

variable {s : Settings} {text : String}

theorem isSpelled_of_key {e : Entry} (hk : String.ofList e.key ∈ keys)
    (h : Spelled e.form e.text e.written) : e.IsSpelled := by
  obtain ⟨key, form, text, written⟩ := e
  have word : ∀ k ∈ keys, k.toList ≠ [] ∧ k.toList.all isKeyChar = true ∧
      k.toList.foldl (fun size c => size + c.utf8Size) 0 ≤ Lexer.maxKeySize := by
    decide
  obtain ⟨hn, hc, hz⟩ := word _ hk
  rw [String.toList_ofList] at hn hc hz
  exact ⟨hn, List.all_eq_true.1 hc, hz, h⟩

theorem readFlag_flag (b : Bool) : readFlag (.scalar .none .plain (flag b)) = some b := by
  cases b <;> rfl

theorem readFilter_word (form : Form) (f : Log.Filter) :
    readFilter (.scalar .none form f.word) = some f :=
  Log.Filter.ofWord?_word f

/-- The entries of settings are read as the settings, whatever stood for them before. -/
theorem withEntries_texts {es : List Entry}
    (ht : es.map (fun e => (String.ofList e.key, String.ofList e.text)) = s.texts)
    (hf : ∀ e ∈ es, String.ofList e.key ∈ flagKeys → e.form = .plain) (s' : Settings) :
    withEntries s' [] (es.map Entry.nodes) = some s := by
  simp only [texts, List.map_eq_cons_iff, List.map_eq_nil_iff, Prod.mk.injEq] at ht
  obtain ⟨lead, _, rfl, ⟨klead, vlead⟩, sep, _, rfl, ⟨ksep, vsep⟩, loc, _, rfl, ⟨kloc, vloc⟩,
    hidden, _, rfl, ⟨khidden, vhidden⟩, framework, _, rfl, ⟨kframework, vframework⟩, filter, _, rfl,
    ⟨kfilter, vfilter⟩, rfl⟩ := ht
  have floc : loc.form = .plain := hf loc (by simp) (by simp [kloc, flagKeys])
  have fhidden : hidden.form = .plain := hf hidden (by simp) (by simp [khidden, flagKeys])
  simp [Entry.nodes, withEntries, withEntry, keys, readText, klead, vlead, ksep, vsep, kloc, vloc,
    khidden, vhidden, kframework, vframework, kfilter, vfilter, floc, fhidden, readFlag_flag,
    readFilter_word]

/-- **Settings are read back** from every document that is written for them, unless they have a
flaw. -/
theorem ofText_of_written (h : Written s text) (hs : s.flaw? = none) : ofText text = .ok s := by
  obtain ⟨es, ht, hw, hf, hc, ha⟩ := h
  have known : ∀ e ∈ es, String.ofList e.key ∈ keys := by
    intro e he
    have : String.ofList e.key ∈ s.texts.map Prod.fst := by
      rw [← ht, List.map_map]
      exact List.mem_map_of_mem he
    exact this
  have some_lines : es ≠ [] := by
    rintro rfl
    cases ht
  have node := Node.ofText?_of_entries hc (fun e he => isSpelled_of_key (known e he) (hw e he))
    some_lines ha
  -- scalars are no aliases, so they stand for themselves
  have followed : ofNode? (some (.mapping .none (es.map Entry.nodes))) =
      withEntries standard [] (es.map Entry.nodes) := by
    rw [ofNode?, List.map_map]
    rfl
  rw [ofText, node, Option.bind_some, followed, withEntries_texts ht hf]
  simp only [hs]

/-! ## The documents of the printer -/

theorem isBreak_of_ascii {c : Char} (h : ' ' ≤ c ∧ c ≤ '~') : isBreak c = false := by
  rw [← Bool.not_eq_true, isBreak, Bool.or_eq_true, Bool.or_eq_true, decide_eq_true_eq,
    decide_eq_true_eq, decide_eq_true_eq]
  rintro ((rfl | rfl) | rfl) <;> revert h <;> decide

theorem escape_padded (c : Char) : Escape c ('\\' :: 'U' :: Hex.padded 8 c.toNat) := by
  have small : c.toNat < Nat.pow 16 8 := by
    have bound : Nat.pow 16 8 = 4294967296 := rfl
    have valid : c.toNat < 0xd800 ∨ 0xdfff < c.toNat ∧ c.toNat < 0x110000 := c.valid
    omega
  have value := Hex.value?_padded 8 c.toNat small
  simp only [Hex.padded, List.nil_append, List.cons_append] at value ⊢
  exact .eightDigits value

theorem escape_spelled (c : Char) : Escape c (escape c) := by
  unfold escape
  split_ifs with hq hb hn hr ht ha
  case pos => subst hq; exact .letter rfl
  case pos => subst hb; exact .letter rfl
  case pos => subst hn; exact .letter rfl
  case pos => subst hr; exact .letter rfl
  case pos => subst ht; exact .letter rfl
  case pos => exact .itself hq hb (isBreak_of_ascii ha)
  case neg => exact escape_padded c

theorem quote_spelled (s : String) :
    Spelled .quoted s.toList (' ' :: (quote s ++ ['\n'])) := by
  have inner : DoubleSpelled s.toList (s.toList.flatMap escape) := by
    induction s.toList with
    | nil => exact .nil
    | cons c cs ih => exact .cons (escape_spelled c) ih
  simpa [quote] using Spelled.double inner

theorem isAllowed_padded {places n : Nat} {d : Char} (h : d ∈ Hex.padded places n) :
    isAllowed d = true := by
  have digits : ∀ m : Fin 16, isAllowed (Hex.digit m) = true := by decide
  induction places generalizing n with
  | zero => cases h
  | succ places ih =>
    rcases List.mem_append.1 h with h | h
    · exact ih h
    · rw [List.mem_singleton.1 h]
      exact digits ⟨n % 16, Nat.mod_lt n (by omega)⟩

/-- Whatever shows a character may occur in a document. -/
theorem all_isAllowed_escape (c : Char) : (escape c).all isAllowed = true := by
  unfold escape
  split_ifs with hq hb hn hr ht ha
  case pos => rfl
  case pos => rfl
  case pos => rfl
  case pos => rfl
  case pos => rfl
  case pos => simp [isAllowed, ha]
  case neg =>
    rw [List.all_eq_true]
    intro d hd
    rcases List.mem_cons.1 hd with rfl | hd
    · rfl
    rcases List.mem_cons.1 hd with rfl | hd
    · rfl
    exact isAllowed_padded hd

theorem all_isAllowed_quote (s : String) : (quote s).all isAllowed = true := by
  have inner : (s.toList.flatMap escape).all isAllowed = true := by
    rw [List.all_flatMap]
    exact List.all_eq_true.2 fun c _ => all_isAllowed_escape c
  rw [quote, List.all_cons, List.all_append, inner]
  rfl

/-- The entry with a value that is written on the line of its key. -/
def line (key : String) (form : Form) (text : String) (value : List Char) : Entry :=
  ⟨key.toList, form, text.toList, ' ' :: (value ++ ['\n'])⟩

/-- The lines of the printer. -/
def lines (s : Settings) : List Entry :=
  [line "frame_prefix" .quoted s.frameLead (quote s.frameLead),
    line "line_separator" .quoted s.separator (quote s.separator),
    line "include_line_info" .plain (flag s.showLocation) (flag s.showLocation).toList,
    line "show_hidden_frames" .plain (flag s.showHidden) (flag s.showHidden).toList,
    line "system_namespace_prefix" .quoted s.frameworkLead (quote s.frameworkLead),
    line "log_level" .plain s.logFilter.word s.logFilter.word.toList]

/-- What the printer makes of settings is a document for them. -/
theorem written_document (s : Settings) : Written s s.document := by
  have flags (b : Bool) : IsPlain (flag b).toList := by cases b <;> exact ⟨by decide, by decide⟩
  have words (f : Log.Filter) : IsPlain f.word.toList := by cases f <;> exact ⟨by decide, by decide⟩
  refine ⟨s.lines, ?_, ?_, ?_, ?_, ?_⟩
  · simp [lines, line, texts]
  · simp only [lines, List.forall_mem_cons]
    exact ⟨quote_spelled _, quote_spelled _, .plain (flags _), .plain (flags _), quote_spelled _,
      .plain (words _), List.forall_mem_nil _⟩
  · simp [lines, line, flagKeys]
  · simp [document, lines, line, entry, Entry.chars]
  · have flags (b : Bool) : (flag b).toList.all isAllowed = true := by cases b <;> decide
    have words (f : Log.Filter) : f.word.toList.all isAllowed = true := by cases f <;> decide
    rw [document, String.toList_ofList]
    simp only [List.all_append, entry]
    simp only [all_isAllowed_quote, flags, words]
    decide

end ReadableTrace.Settings
