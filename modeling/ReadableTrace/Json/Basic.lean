import ReadableTrace.Json.Number

/-!
# JSON values

A value as it was written: members of an object keep their order and may repeat, numbers are not
rounded, and a text may contain an escape that names half of a character (`Json.text none`).
-/

namespace ReadableTrace

/-- A JSON value. -/
inductive Json
  | null
  | bool (b : Bool)
  | number (n : Json.Number)
  /-- A text, or nothing if its escapes name half of a character. -/
  | text (s : Option String)
  | list (items : List Json)
  | object (members : List (Option String × Json))

namespace Json

/-- A number that counts something. -/
def ofNat (n : Nat) : Json := .number (.ofNat n)

/-- A text. -/
def ofString (s : String) : Json := .text (some s)

/-- An object of named members. -/
def ofMembers (members : List (String × Json)) : Json :=
  .object (members.map fun m => (some m.1, m.2))

mutual

/-- How many lists and objects are nested in each other. -/
def depth : Json → Nat
  | .list items => depthOfItems items + 1
  | .object members => depthOfMembers members + 1
  | _ => 0

/-- The greatest depth of some values. -/
def depthOfItems : List Json → Nat
  | [] => 0
  | v :: rest => max (depth v) (depthOfItems rest)

/-- The greatest depth of the values of some members. -/
def depthOfMembers : List (Option String × Json) → Nat
  | [] => 0
  | (_, v) :: rest => max (depth v) (depthOfMembers rest)

end

mutual

/-- Whether every text is whole and every number fits into 64 bits. -/
def isSound : Json → Bool
  | .text s => s.isSome
  | .number n => !n.isTooLarge
  | .list items => areSound items
  | .object members => membersAreSound members
  | _ => true

/-- Whether all of some values are sound. -/
def areSound : List Json → Bool
  | [] => true
  | v :: rest => isSound v && areSound rest

/-- Whether all keys and values of some members are sound. -/
def membersAreSound : List (Option String × Json) → Bool
  | [] => true
  | (k, v) :: rest => k.isSome && isSound v && membersAreSound rest

end

end Json

end ReadableTrace
