import ReadableTrace.Json.Basic

/-!
# Records in JSON

A record is an object with known keys, or a list of the values of these keys in their order
(`Json.fields`). An object may hold other keys too, but none of the known ones twice; a list may be
too short but not too long. The functions below take a value, or the value of a key, for what it is
meant to be, and refuse all others.
-/

namespace ReadableTrace.Json

/-- The values of the known keys that are there. -/
abbrev Fields := List (String × Json)

/-- The members of an object that have known keys. -/
def knownMembers (keys : List String) : List (Option String × Json) → Option Fields
  | [] => some []
  | (none, _) :: _ => none
  | (some k, v) :: rest => do
    let others ← knownMembers keys rest
    if keys.contains k then
      if others.any (·.1 == k) then none else some ((k, v) :: others)
    else some others

/-- The values of the known keys of a record. -/
def fields (keys : List String) : Json → Option Fields
  | .object members => knownMembers keys members
  | .list items => if items.length ≤ keys.length then some (keys.zip items) else none
  | _ => none

/-- The value of a key that has to be there. -/
def Fields.required {α : Type} (fs : Fields) (key : String) (read : Json → Option α) : Option α :=
  (fs.lookup key).bind read

/-- The value of a key, or what stands for it if it is not there. -/
def Fields.optional {α : Type} (fs : Fields) (key : String) (absent : α)
    (read : Json → Option α) : Option α :=
  match fs.lookup key with
  | some v => read v
  | none => some absent

/-- A truth value. -/
def toBool? : Json → Option Bool
  | .bool b => some b
  | _ => none

/-- A text. -/
def toString? : Json → Option String
  | .text s => s
  | _ => none

/-- A natural number below a bound. -/
def toNatBelow? (bound : Nat) : Json → Option Nat
  | .number n => n.toNat?.filter (· < bound)
  | _ => none

/-- A number of 32 bits. -/
def toUInt32? (v : Json) : Option UInt32 := (v.toNatBelow? UInt32.size).map UInt32.ofNat

/-- A number of 64 bits. -/
def toUInt64? (v : Json) : Option UInt64 := (v.toNatBelow? UInt64.size).map UInt64.ofNat

/-- Null, or what is read from any other value. -/
def toOption? {α : Type} (read : Json → Option α) : Json → Option (Option α)
  | .null => some none
  | v => (read v).map some

/-- A list. -/
def toList? {α : Type} (read : Json → Option α) : Json → Option (List α)
  | .list items => items.mapM read
  | _ => none

/-- One of several named cases: its name, and what comes with it, if anything does. -/
def toCase? : Json → Option (String × Option Json)
  | .text s => s.map fun name => (name, none)
  | .object [(k, v)] => k.map fun name => (name, some v)
  | _ => none

/-- Whether a case comes with nothing, or with null. -/
def isBare : Option Json → Bool
  | none | some .null => true
  | _ => false

end ReadableTrace.Json
