/-!
# Hexadecimal digits

`digits` writes a number without leading zeros, `padded` to a given number of places, and `value?`
reads digits of either case. Reading what was written in enough places gives the number back
(`value?_padded`).
-/

namespace ReadableTrace.Hex

/-- The lower-case digit of a number below sixteen. -/
def digit (n : Nat) : Char := if n < 10 then Char.ofNat (n + 48) else Char.ofNat (n + 87)

/-- The number that a digit of either case stands for. -/
def digitValue? (c : Char) : Option Nat :=
  if '0' ≤ c ∧ c ≤ '9' then some (c.toNat - 48)
  else if 'a' ≤ c ∧ c ≤ 'f' then some (c.toNat - 87)
  else if 'A' ≤ c ∧ c ≤ 'F' then some (c.toNat - 55)
  else none

/-- The digits of a number, the most significant first. -/
def digits (n : Nat) : List Char :=
  if n < 16 then [digit n] else digits (n / 16) ++ [digit (n % 16)]
  termination_by n
  decreasing_by omega

/-- The last `places` digits of a number, with leading zeros. -/
def padded : Nat → Nat → List Char
  | 0, _ => []
  | places + 1, n => padded places (n / 16) ++ [digit (n % 16)]

/-- One more digit behind a number. -/
def push? (n : Option Nat) (c : Char) : Option Nat :=
  n.bind fun n => (digitValue? c).map fun d => n * 16 + d

/-- The number that digits stand for, if all are digits. -/
def value? (cs : List Char) : Option Nat := cs.foldl push? (some 0)

theorem digitValue?_digit {n : Nat} (h : n < 16) : digitValue? (digit n) = some n := by
  have : ∀ m : Fin 16, digitValue? (digit m) = some m.val := by decide
  exact this ⟨n, h⟩

theorem value?_padded (places n : Nat) (h : n < Nat.pow 16 places) :
    value? (padded places n) = some n := by
  induction places generalizing n with
  | zero =>
    have : n = 0 := Nat.lt_one_iff.1 h
    simp [padded, value?, this]
  | succ places ih =>
    have front : n / 16 < Nat.pow 16 places := (Nat.div_lt_iff_lt_mul (by omega)).2 h
    have ih := ih _ front
    simp only [value?] at ih
    simp only [padded, value?, List.foldl_append, List.foldl_cons, List.foldl_nil, ih, push?,
      Option.bind_some, digitValue?_digit (Nat.mod_lt n (by omega)), Option.map_some]
    congr 1
    omega

end ReadableTrace.Hex
