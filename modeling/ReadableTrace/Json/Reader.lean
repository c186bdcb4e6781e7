import ReadableTrace.Json.Basic
import ReadableTrace.Text.Hex

/-!
# Reading JSON

`Json.ofText?` reads a text that holds one value in strict JSON: no comments, no trailing commas, no
control characters inside texts, and nothing but blanks around the value. Each lexical part has a
function that takes the characters left and gives what it read with the rest.
-/

namespace ReadableTrace.Json

/-- Blanks between the parts of a value. -/
def isBlank (c : Char) : Bool := c = ' ' || c = '\n' || c = '\t' || c = '\r'

/-- Passes over blanks. -/
def skipBlanks (cs : List Char) : List Char := cs.dropWhile isBlank

/-! ## Texts -/

/-- The character behind a backslash that stands for another. -/
def escaped? : Char → Option Nat
  | '"' => some 0x22
  | '\\' => some 0x5C
  | '/' => some 0x2F
  | 'b' => some 0x08
  | 'f' => some 0x0C
  | 'n' => some 0x0A
  | 'r' => some 0x0D
  | 't' => some 0x09
  | _ => none

/-- The code units of a text up to the closing quote. A character that is not escaped is one unit;
an escape may name a half of a character. -/
def units : List Char → Option (List Nat × List Char)
  | '"' :: r => some ([], r)
  | '\\' :: 'u' :: a :: b :: c :: d :: r => do
    let n ← Hex.value? [a, b, c, d]
    let (us, r) ← units r
    some (n :: us, r)
  | '\\' :: c :: r => do
    let n ← escaped? c
    let (us, r) ← units r
    some (n :: us, r)
  | c :: r =>
    if c.toNat < 0x20 then none
    else do
      let (us, r) ← units r
      some (c.toNat :: us, r)
  | [] => none

/-- Whether a code unit is the first half of a character. -/
def isHighHalf (n : Nat) : Bool := 0xD800 ≤ n && n ≤ 0xDBFF

/-- Whether a code unit is the second half of a character. -/
def isLowHalf (n : Nat) : Bool := 0xDC00 ≤ n && n ≤ 0xDFFF

/-- The characters that code units stand for, if every half meets its other half. -/
def joinHalves : List Nat → Option (List Char)
  | [] => some []
  | n :: us =>
    if isLowHalf n then none
    else if isHighHalf n then
      match us with
      | m :: us =>
        if isLowHalf m then
          (joinHalves us).map (Char.ofNat (0x10000 + (n - 0xD800) * 0x400 + (m - 0xDC00)) :: ·)
        else none
      | [] => none
    else (joinHalves us).map (Char.ofNat n :: ·)

/-- A text from behind its opening quote. -/
def string (cs : List Char) : Option (Option String × List Char) :=
  (units cs).map fun (us, r) => ((joinHalves us).map String.ofList, r)

/-! ## Numbers -/

/-- A run of digits, with at least one. -/
def digitRun (cs : List Char) : Option (List Char × List Char) :=
  match cs.span Decimal.isDigit with
  | ([], _) => none
  | run => some run

/-- The digits before the point: a zero, or digits that do not begin with one. -/
def wholePart : List Char → Option (Nat × List Char)
  | '0' :: r => some (0, r)
  | cs => (digitRun cs).map fun (ds, r) => (Decimal.value ds, r)

/-- The digits behind a point, if there is a point. -/
def fractionPart : List Char → Option (List Char × List Char)
  | '.' :: r => digitRun r
  | cs => some ([], cs)

/-- The digits of an exponent, behind its letter. -/
def exponentDigits : List Char → Option (Int × List Char)
  | '-' :: r => (digitRun r).map fun (ds, r) => (-(Decimal.value ds : Int), r)
  | '+' :: r => (digitRun r).map fun (ds, r) => (Decimal.value ds, r)
  | cs => (digitRun cs).map fun (ds, r) => (Decimal.value ds, r)

/-- An exponent, if there is one. -/
def exponentPart : List Char → Option (Option Int × List Char)
  | 'e' :: r => (exponentDigits r).map fun (n, r) => (some n, r)
  | 'E' :: r => (exponentDigits r).map fun (n, r) => (some n, r)
  | cs => some (none, cs)

/-- A number without its sign. -/
def unsignedNumber (isNegative : Bool) (cs : List Char) : Option (Number × List Char) := do
  let (whole, r) ← wholePart cs
  let (fraction, r) ← fractionPart r
  let (exponent, r) ← exponentPart r
  some (⟨isNegative, whole, fraction, exponent⟩, r)

/-- A number. -/
def readNumber : List Char → Option (Number × List Char)
  | '-' :: r => unsignedNumber true r
  | cs => unsignedNumber false cs

/-! ## Values -/

mutual

/-- A value. Every call takes one from the first argument. -/
def value : Nat → List Char → Option (Json × List Char)
  | 0, _ => none
  | fuel + 1, cs =>
    match skipBlanks cs with
    | 'n' :: 'u' :: 'l' :: 'l' :: r => some (.null, r)
    | 't' :: 'r' :: 'u' :: 'e' :: r => some (.bool true, r)
    | 'f' :: 'a' :: 'l' :: 's' :: 'e' :: r => some (.bool false, r)
    | '"' :: r => (string r).map fun (s, r) => (.text s, r)
    | '[' :: r =>
      match skipBlanks r with
      | ']' :: r => some (.list [], r)
      | r => (items fuel r).map fun (vs, r) => (.list vs, r)
    | '\x7b' :: r =>
      match skipBlanks r with
      | '\x7d' :: r => some (.object [], r)
      | r => (members fuel r).map fun (ms, r) => (.object ms, r)
    | cs => (readNumber cs).map fun (n, r) => (.number n, r)

/-- The items of a list, of which there is at least one, and the closing bracket. -/
def items : Nat → List Char → Option (List Json × List Char)
  | 0, _ => none
  | fuel + 1, cs => do
    let (v, r) ← value fuel cs
    match skipBlanks r with
    | ']' :: r => some ([v], r)
    | ',' :: r =>
      let (vs, r) ← items fuel r
      some (v :: vs, r)
    | _ => none

/-- The members of an object, of which there is at least one, and the closing brace. -/
def members : Nat → List Char → Option (List (Option String × Json) × List Char)
  | 0, _ => none
  | fuel + 1, cs =>
    match skipBlanks cs with
    | '"' :: r => do
      let (k, r) ← string r
      match skipBlanks r with
      | ':' :: r =>
        let (v, r) ← value fuel r
        match skipBlanks r with
        | '\x7d' :: r => some ([(k, v)], r)
        | ',' :: r =>
          let (ms, r) ← members fuel r
          some ((k, v) :: ms, r)
        | _ => none
      | _ => none
    | _ => none

end

/-- The value that a text holds. A call that reads a value or member takes up at least one
character, and of two nested calls at least one does, so twice the length is enough of them. -/
def ofChars? (cs : List Char) : Option Json :=
  match value (2 * cs.length + 2) cs with
  | some (v, r) => if (skipBlanks r).isEmpty then some v else none
  | none => none

/-- The value that a text holds. -/
def ofText? (s : String) : Option Json := ofChars? s.toList

end ReadableTrace.Json
