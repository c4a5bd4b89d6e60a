/-!
# TenantSql.Number.Decimal

Powers of the two bases that numbers are stored and written in, decimal numbers as a
coefficient and a power of ten, and the texts of whole numbers and decimals in base ten.

* `Decimal` is a magnitude; a sign travels beside it where one is needed.
* `Decimal.num` and `Decimal.den` give the same magnitude as a quotient of two
  naturals, which is how the binary formats read it.
* `Decimal.positional` writes it without an exponent, digit for digit.
-/

namespace TenantSql

/-- Two to the power `n`. -/
def twoPow (n : Nat) : Nat :=
  Nat.pow 2 n

/-- Ten to the power `n`. -/
def tenPow (n : Nat) : Nat :=
  Nat.pow 10 n

theorem twoPow_pos (n : Nat) : 0 < twoPow n :=
  Nat.pow_pos (Nat.zero_lt_succ 1)

theorem tenPow_pos (n : Nat) : 0 < tenPow n :=
  Nat.pow_pos (Nat.zero_lt_succ 9)

theorem twoPow_add (m n : Nat) : twoPow (m + n) = twoPow m * twoPow n :=
  Nat.pow_add 2 m n

theorem tenPow_add (m n : Nat) : tenPow (m + n) = tenPow m * tenPow n :=
  Nat.pow_add 10 m n

/-- The digits of a natural number in base ten, most significant first. -/
def natDigits (n : Nat) : List Char :=
  Nat.toDigits 10 n

/-- A natural number in base ten. -/
def natText (n : Nat) : String :=
  String.ofList (natDigits n)

/-- An integer in base ten, with a minus sign in front of a negative one. -/
def intText (n : Int) : String :=
  if n < 0 then "-" ++ natText n.natAbs else natText n.natAbs

/-- The magnitude `coefficient * 10 ^ exponent`. -/
structure Decimal where
  coefficient : Nat
  exponent : Int
deriving DecidableEq, Repr

namespace Decimal

/-- Numerator of the magnitude over `den`. -/
def num (d : Decimal) : Nat :=
  d.coefficient * tenPow d.exponent.toNat

/-- Denominator of the magnitude: a power of ten, one for a whole coefficient and exponent. -/
def den (d : Decimal) : Nat :=
  tenPow (-d.exponent).toNat

/-- Number of digits after the point in the positional text. -/
def places (d : Decimal) : Nat :=
  (-d.exponent).toNat

/-- The digits of `n` on at least `width` places, with zeros in front. -/
def padded (width n : Nat) : List Char :=
  let ds := natDigits n
  List.replicate (width - ds.length) '0' ++ ds

/-- The magnitude without an exponent: whole part, then a point and the fraction digits if the
exponent is negative. -/
def positional (d : Decimal) : List Char :=
  if d.places = 0 then
    natDigits d.num
  else
    natDigits (d.coefficient / d.den) ++ '.' :: padded d.places (d.coefficient % d.den)

end Decimal

end TenantSql
