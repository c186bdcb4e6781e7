import ReadableTrace.Yaml.Node.Basic
import ReadableTrace.Yaml.Token.Reader

/-!
# Reading nodes

`Node.ofText?` reads a text that holds at most one document. Each reader takes the tokens left and
gives what it read with the rest. A text may go on behind its document with markers for the end of
one, but with nothing else.
-/

namespace ReadableTrace.Yaml

/-- A tag and the name of a node, in either order and each at most once. -/
def Marks.ofTokens? (handles : Handles) : List Token → Option (Marks × List Token)
  | .anchor number :: .tag mark :: r
  | .tag mark :: .anchor number :: r =>
    (Tag.ofMark? handles mark).map fun tag => (⟨some number, some tag⟩, r)
  | .anchor number :: r => some (⟨some number, Option.none⟩, r)
  | .tag mark :: r => (Tag.ofMark? handles mark).map fun tag => (⟨Option.none, some tag⟩, r)
  | r => some (.none, r)

namespace Node

/-- Whether nothing stands between a mark by indentation and this token. -/
def endsBlockPart : List Token → Bool
  | .key :: _ | .value :: _ | .blockEnd :: _ => true
  | _ => false

/-- Whether nothing stands between a mark inside of brackets and this token. -/
def endsListPart : List Token → Bool
  | .comma :: _ | .closeBracket :: _ => true
  | _ => false

/-- Whether nothing stands between a mark inside of braces and this token. -/
def endsMappingPart : List Token → Bool
  | .comma :: _ | .closeBrace :: _ => true
  | _ => false

mutual

/-- A node. By indentation only a node outside of brackets and braces is written, and only the key
or value of a mapping may be a list that begins in the column of the mapping, and so has no token
for its beginning. Every call takes one from the number. -/
def read (handles : Handles) (isBlock isEntry : Bool) :
    Nat → List Token → Option (Node × List Token)
  | 0, _ => none
  | _ + 1, .aliasOf number :: r => some (.aliasOf number, r)
  | fuel + 1, tokens => do
    let (marks, r) ← Marks.ofTokens? handles tokens
    match r with
    | .scalar form text :: r => some (.scalar marks form text, r)
    | .openBracket :: r =>
      let (items, r) ← readFlowItems handles true fuel r
      some (.list marks items, r)
    | .openBrace :: r =>
      let (entries, r) ← readFlowEntries handles true fuel r
      some (.mapping marks entries, r)
    | r =>
      match isBlock, isEntry, r with
      | _, true, .dash :: _ =>
        let (items, r) ← readSharedItems handles fuel r
        some (.list marks items, r)
      | true, _, .listStart :: r =>
        let (items, r) ← readItems handles fuel r
        some (.list marks items, r)
      | true, _, .mappingStart :: r =>
        let (entries, r) ← readEntries handles fuel r
        some (.mapping marks entries, r)
      | _, _, r => if marks = .none then none else some (.scalar marks .plain "", r)

/-- The items of a list that is written by indentation. -/
def readItems (handles : Handles) : Nat → List Token → Option (List Node × List Token)
  | 0, _ => none
  | fuel + 1, .dash :: r => do
    let (n, r) ← (match r with
      | .dash :: _ | .blockEnd :: _ => some (nothing, r)
      | _ => read handles true false fuel r)
    let (items, r) ← readItems handles fuel r
    some (n :: items, r)
  | _ + 1, .blockEnd :: r => some ([], r)
  | _ + 1, _ => none

/-- The items of a list that begins in the column of the mapping around. It ends with the first
token that is no dash. -/
def readSharedItems (handles : Handles) : Nat → List Token → Option (List Node × List Token)
  | 0, _ => none
  | fuel + 1, .dash :: r => do
    let (n, r) ← (if endsBlockPart r || r.head? = some .dash then some (nothing, r)
      else read handles true false fuel r)
    let (items, r) ← readSharedItems handles fuel r
    some (n :: items, r)
  | _ + 1, r => some ([], r)

/-- The entries of a mapping that is written by indentation. -/
def readEntries (handles : Handles) : Nat → List Token → Option (List (Node × Node) × List Token)
  | 0, _ => none
  | fuel + 1, .key :: r => do
    let (k, r) ← (if endsBlockPart r then some (nothing, r) else read handles true true fuel r)
    let (v, r) ← (match r with
      | .value :: r => if endsBlockPart r then some (nothing, r) else read handles true true fuel r
      | r => some (nothing, r))
    let (entries, r) ← readEntries handles fuel r
    some ((k, v) :: entries, r)
  | _ + 1, .blockEnd :: r => some ([], r)
  | _ + 1, _ => none

/-- The items of a list up to its bracket. A key makes a mapping of one entry; where the key is not
written, the token in place of it is lost. -/
def readFlowItems (handles : Handles) (isFirst : Bool) :
    Nat → List Token → Option (List Node × List Token)
  | 0, _ => none
  | _ + 1, .closeBracket :: r => some ([], r)
  | fuel + 1, tokens => do
    let r ← (match isFirst, tokens with
      | true, r => some r
      | false, .comma :: r => some r
      | false, _ => none)
    match r with
    | .closeBracket :: r => some ([], r)
    | .key :: r =>
      let (k, r) ← (if endsListPart r || r.head? = some .value then some (nothing, r.tail)
        else read handles false false fuel r)
      let (v, r) ← (match r with
        | .value :: r =>
          if endsListPart r then some (nothing, r) else read handles false false fuel r
        | r => some (nothing, r))
      let (items, r) ← readFlowItems handles false fuel r
      some (.mapping .none [(k, v)] :: items, r)
    | r =>
      let (n, r) ← read handles false false fuel r
      let (items, r) ← readFlowItems handles false fuel r
      some (n :: items, r)

/-- The entries of a mapping up to its brace. A node that is no key has no value. -/
def readFlowEntries (handles : Handles) (isFirst : Bool) :
    Nat → List Token → Option (List (Node × Node) × List Token)
  | 0, _ => none
  | _ + 1, .closeBrace :: r => some ([], r)
  | fuel + 1, tokens => do
    let r ← (match isFirst, tokens with
      | true, r => some r
      | false, .comma :: r => some r
      | false, _ => none)
    match r with
    | .closeBrace :: r => some ([], r)
    | .key :: r =>
      let (k, r) ← (if endsMappingPart r || r.head? = some .value then some (nothing, r)
        else read handles false false fuel r)
      let (v, r) ← (match r with
        | .value :: r =>
          if endsMappingPart r then some (nothing, r) else read handles false false fuel r
        | r => some (nothing, r))
      let (entries, r) ← readFlowEntries handles false fuel r
      some ((k, v) :: entries, r)
    | r =>
      let (k, r) ← read handles false false fuel r
      let (entries, r) ← readFlowEntries handles false fuel r
      some ((k, nothing) :: entries, r)

end

/-! ## Documents -/

/-- The directives in front of a document and the handles that they give a meaning. The version is
said at most once, and so is the meaning of each handle. -/
def readDirectives (hasVersion : Bool) (handles : Handles) :
    List Token → Option (Handles × List Token)
  | .directive .version :: r => if hasVersion then none else readDirectives true handles r
  | .directive (.handle handle beginning) :: r =>
    if (handles.lookup handle).isSome then none
    else readDirectives hasVersion ((handle, beginning) :: handles) r
  | r => some (handles, r)

/-- Whether a document is over before it has begun. -/
def isOver : List Token → Bool
  | [] | .directive _ :: _ | .documentStart :: _ | .documentEnd :: _ => true
  | _ => false

/-- The node of the document at the beginning and what stands behind; of an empty text no node.
Behind directives there has to be the marker for the beginning of a document. -/
def readDocument (fuel : Nat) (tokens : List Token) : Option (Option Node × List Token) :=
  match tokens with
  | [] => some (none, [])
  | .directive _ :: _ | .documentStart :: _ => do
    match ← readDirectives false [] tokens with
    | (handles, .documentStart :: r) =>
      if isOver r then some (some nothing, r)
      else (read (handles ++ standardHandles) true false fuel r).map fun (n, r) => (some n, r)
    | _ => none
  | _ => (read standardHandles true false fuel tokens).map fun (n, r) => (some n, r)

/-- The node of the one document of some tokens, if there is one. Of two nested calls of the readers
at least one takes up a token, so twice their number is enough. -/
def ofTokens? (tokens : List Token) : Option (Option Node) := do
  let (node, r) ← readDocument (2 * tokens.length + 2) tokens
  if r.all (· = .documentEnd) then some node else none

/-- The node of the one document in a text, if there is one. -/
def ofText? (text : String) : Option (Option Node) := (Token.ofText? text).bind ofTokens?

end Node

end ReadableTrace.Yaml
