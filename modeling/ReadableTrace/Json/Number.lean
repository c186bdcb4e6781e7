import ReadableTrace.Text.Decimal

/-!
# Numbers as they are written

`Number` keeps a JSON number digit by digit, so that nothing is rounded before it is known what the
number is for. `Number.isTooLarge` says which numbers have no place among those of 64 bits: as many
leading digits as fit into 64 bits are kept, their number is rounded to 53 bits and so is the power
of ten that belongs to it, and the product of the two must not be rounded to infinity.
-/

namespace ReadableTrace.Json

/-- A number as it was written. -/
structure Number where
  isNegative : Bool
  /-- The digits before the point. -/
  whole : Nat
  /-- The digits behind the point. -/
  fraction : List Char
  exponent : Option Int
  deriving DecidableEq

namespace Number

/-- A natural number. -/
def ofNat (n : Nat) : Number := ⟨false, n, [], none⟩

/-- The natural number that is written without sign, point and exponent. -/
def toNat? (n : Number) : Option Nat :=
  if n.isNegative || !n.fraction.isEmpty || n.exponent.isSome then none else some n.whole

theorem toNat?_ofNat (n : Nat) : (ofNat n).toNat? = some n := rfl

/-! ## Size -/

/-- The greatest significand. -/
def maxSignificand : Nat := 0xFFFFFFFFFFFFFFFF

/-- The significand with those of some digits behind it that fit, and the digits from the first on
that does not. -/
def absorb (significand : Nat) : List Char → Nat × List Char
  | [] => (significand, [])
  | d :: ds =>
    let next := significand * 10 + Decimal.digitValue d
    if next ≤ maxSignificand then absorb next ds else (significand, d :: ds)

/-- The significand of a number and the power of ten that belongs to it. Digits before the point
that do not fit raise the power, and digits behind it that do not fit are dropped. -/
def parts (n : Number) : Nat × Int :=
  let (front, left) := absorb 0 (Decimal.digits n.whole)
  let (significand, dropped) := absorb front n.fraction
  (significand,
    n.exponent.getD 0 + left.length - (n.fraction.length - dropped.length : Nat))

/-- The nearest number of at most 53 significant bits; of two that are as near the even one. -/
def toNearest (n : Nat) : Nat :=
  if n.log2 < 53 then n
  else
    let unit := Nat.pow 2 (n.log2 - 52)
    let units := n / unit
    let excess := n % unit
    if 2 * excess > unit || (2 * excess = unit && units % 2 = 1) then (units + 1) * unit
    else units * unit

/-- The least product that is rounded to infinity. -/
def overflowBound : Nat := Nat.pow 2 1024 - Nat.pow 2 970

/-- The greatest power of ten among the numbers of 64 bits. -/
def maxPower : Int := 308

/-- Whether a number is too large for a number of 64 bits. -/
def isTooLarge (n : Number) : Bool :=
  let (significand, power) := n.parts
  significand ≠ 0 && 0 ≤ power
    && (maxPower < power
      || overflowBound ≤ toNearest significand * toNearest (Nat.pow 10 power.toNat))

theorem toNearest_of_log2_lt {n : Nat} (h : n.log2 < 53) : toNearest n = n := by
  simp [toNearest, h]

end Number

end ReadableTrace.Json
