import TenantSql.Number.Decimal
/-!
# TenantSql.Postgres.Numeric

The wire form of the type `numeric`: groups of four decimal digits, the power of
ten thousand of the first group, a sign, and the number of digits after the
point.

A decimal has at most `Numeric.maxScale` digits after the point; more are rounded
away, half up in magnitude. Its whole part has to fit `Numeric.wholeBits` bits.
-/

namespace TenantSql

/-- A number as `numeric` stores it. Group `i` counts `10000 ^ (weight - i)`. -/
structure Numeric where
  groups : List Nat
  weight : Int
  negative : Bool
  scale : Nat
deriving DecidableEq, Repr

namespace Numeric

/-- The digits of `n` in base ten thousand, most significant first, if there are at most `limit`. -/
def groupsWithin : Nat → Nat → List Nat
  | 0, _ => []
  | limit + 1, n => if n = 0 then [] else groupsWithin limit (n / 10000) ++ [n % 10000]

/-- The digits of `n` in base ten thousand, most significant first; none for zero. There are at
most `n` of them. -/
def groupsOf (n : Nat) : List Nat :=
  groupsWithin n n

/-- Drops zeros from the end of a list, at most `limit` of them. -/
def dropTrailingZeros (limit : Nat) (gs : List Nat) : List Nat :=
  gs.take (gs.length - min limit (gs.reverse.takeWhile (· == 0)).length)

/-- The number `± mantissa / 10 ^ scale`. The mantissa is first scaled to whole groups after the
point. Groups of zeros after the point go, unless the number is below one. -/
def ofScaled (negative : Bool) (mantissa scale : Nat) : Numeric :=
  if mantissa = 0 then
    ⟨[], 0, false, 0⟩
  else
    -- The number of groups after the point; the last one is filled up with zeros.
    let after := (scale + 3) / 4
    let gs := groupsOf (mantissa * tenPow (4 * after - scale))
    let weight : Int := (gs.length : Int) - after - 1
    ⟨if 0 ≤ weight then dropTrailingZeros after gs else gs, weight, negative, scale⟩

/-- The most digits after the point. -/
def maxScale : Nat := 28

/-- The width of the whole part. -/
def wholeBits : Nat := 96

/-- A decimal's mantissa and scale: the scale is its number of places, or the greatest scale after
rounding half up. -/
def scaled (d : Decimal) : Nat × Nat :=
  if d.places ≤ maxScale then
    (d.num, d.places)
  else
    let cut := tenPow (d.places - maxScale)
    ((2 * d.coefficient + cut) / (2 * cut), maxScale)

/-- The stored form of a signed decimal, unless its whole part is too large. -/
def ofDecimal? (negative : Bool) (d : Decimal) : Option Numeric :=
  let (mantissa, scale) := scaled d
  if mantissa / tenPow scale < twoPow wholeBits then some (ofScaled negative mantissa scale)
  else none

/-- The stored form of an integer. -/
def ofInt (n : Int) : Numeric :=
  ofScaled (n < 0) n.natAbs 0

end Numeric

end TenantSql
