import TenantSql.Number.Decimal
/-!
# TenantSql.Number.Binary

IEEE 754 binary interchange formats in exact integer arithmetic.

A finite number of a format is a whole multiple of its smallest positive number,
so a magnitude is a natural number of *units*. The bit pattern of a magnitude
(exponent field and fraction field read as one number) is its *code*; codes grow
with the magnitude, and the code after the largest finite one stands for
infinity. Everything here is stated on units and codes:

* `FloatFormat.units` decodes a code,
* `FloatFormat.nearest` rounds a quotient of units to a code, ties to even,
* `FloatFormat.ofDecimal` rounds a decimal.

Rounding writes the fraction with its leading one into the code by addition, so
a carry out of the fraction moves into the exponent field by itself.
-/

namespace TenantSql

/-- The whole number nearest to `num / den`; a half goes to the even neighbour. -/
def roundHalfEven (num den : Nat) : Nat :=
  let q := num / den
  let r := num % den
  if 2 * r < den then q
  else if den < 2 * r then q + 1
  else q + q % 2

/-- A binary interchange format, given by the widths of its two magnitude fields. -/
structure FloatFormat where
  fractionBits : Nat
  exponentBits : Nat
deriving DecidableEq, Repr

namespace FloatFormat

/-- Single precision. -/
def single : FloatFormat := ⟨23, 8⟩

/-- Double precision. -/
def double : FloatFormat := ⟨52, 11⟩

variable (f : FloatFormat)

/-- One unit, the smallest positive number, is `2 ^ -unitExponent`. -/
def unitExponent : Nat :=
  twoPow (f.exponentBits - 1) - 2 + f.fractionBits

/-- The number one, in units. -/
def one : Nat :=
  twoPow f.unitExponent

/-- Width of a code. -/
def codeBits : Nat :=
  f.exponentBits + f.fractionBits

/-- The code of infinity; larger codes are not numbers. -/
def infinityCode : Nat :=
  (twoPow f.exponentBits - 1) * twoPow f.fractionBits

/-- The magnitude of a code in units. -/
def units (code : Nat) : Nat :=
  let field := code / twoPow f.fractionBits
  let fraction := code % twoPow f.fractionBits
  if field = 0 then fraction else (twoPow f.fractionBits + fraction) * twoPow (field - 1)

/-- The code of the number nearest to `num / den` units, ties to the even code; a magnitude that
rounds beyond the largest number is infinity. -/
def nearest (num den : Nat) : Nat :=
  -- The fraction starts `shift` places above the unit; below the normal numbers at the unit itself.
  let shift := (num / den).log2 - f.fractionBits
  min f.infinityCode (shift * twoPow f.fractionBits + roundHalfEven num (den * twoPow shift))

/-- The code of the number nearest to a decimal. The two early answers keep the arithmetic small:
a power of ten above every number of the format, and a magnitude below half a unit. -/
def ofDecimal (d : Decimal) : Nat :=
  if d.coefficient = 0 then
    0
  -- A power of ten alone that is above every number of the format.
  else if (twoPow f.exponentBits : Int) < d.exponent then
    f.infinityCode
  -- Less than half a unit, as ten is more than two to the third.
  else if (d.coefficient.log2 + f.unitExponent + 2 : Int) ≤ -3 * d.exponent then
    0
  else
    f.nearest (d.num * f.one) d.den

theorem infinityCode_lt : f.infinityCode < twoPow f.codeBits := by
  rw [infinityCode, codeBits, twoPow_add]
  exact Nat.mul_lt_mul_of_pos_right (Nat.sub_lt (twoPow_pos _) Nat.one_pos) (twoPow_pos _)

theorem nearest_le (num den : Nat) : f.nearest num den ≤ f.infinityCode :=
  Nat.min_le_left _ _

theorem ofDecimal_le (d : Decimal) : f.ofDecimal d ≤ f.infinityCode := by
  unfold ofDecimal
  split
  · exact Nat.zero_le _
  · split
    · exact Nat.le_refl _
    · split
      · exact Nat.zero_le _
      · exact f.nearest_le _ _

end FloatFormat

/-- A number of a binary format, by its bits: a sign and the code of a magnitude. -/
structure BinaryFloat (f : FloatFormat) where
  negative : Bool
  code : Nat
  code_lt : code < twoPow f.codeBits

/-- Double precision numbers. -/
abbrev Binary64 := BinaryFloat .double

/-- Single precision numbers. -/
abbrev Binary32 := BinaryFloat .single

namespace BinaryFloat

variable {f : FloatFormat}

/-- The number with a sign and a code up to infinity's. -/
def ofCode (negative : Bool) (code : Nat) (h : code ≤ f.infinityCode) : BinaryFloat f :=
  ⟨negative, code, Nat.lt_of_le_of_lt h f.infinityCode_lt⟩

/-- Whether the bits stand for no number. -/
def isNaN (x : BinaryFloat f) : Bool :=
  f.infinityCode < x.code

/-- Whether the bits stand for a number that is not infinite. -/
def isFinite (x : BinaryFloat f) : Bool :=
  x.code < f.infinityCode

/-- The magnitude in units, for a finite number. -/
def units (x : BinaryFloat f) : Nat :=
  f.units x.code

/-- Numeric comparison: a value that is not a number equals nothing, and the two zeros are equal. -/
def numericEq (x y : BinaryFloat f) : Bool :=
  !x.isNaN && !y.isNaN && x.code == y.code && (x.negative == y.negative || x.code == 0)

instance : BEq (BinaryFloat f) := ⟨numericEq⟩

/-- The integer that a finite number is, if it is one. -/
def toInt? (x : BinaryFloat f) : Option Int :=
  if x.isFinite && x.units % f.one == 0 then
    let n : Int := (x.units / f.one : Nat)
    some (if x.negative then -n else n)
  else
    none

/-- The infinity of a sign. -/
def infinity (negative : Bool) : BinaryFloat f :=
  ofCode negative f.infinityCode (Nat.le_refl _)

/-- The number nearest to a signed decimal, ties to even. -/
def ofDecimal (negative : Bool) (d : Decimal) : BinaryFloat f :=
  ofCode negative (f.ofDecimal d) (f.ofDecimal_le d)

/-- The number nearest to an integer, ties to even. -/
def ofInt (n : Int) : BinaryFloat f :=
  ofCode (n < 0) (f.nearest (n.natAbs * f.one) 1) (f.nearest_le _ _)

/-- The bits as one number: the sign on top of the code. -/
def bits (x : BinaryFloat f) : Nat :=
  (if x.negative then twoPow f.codeBits else 0) + x.code

end BinaryFloat

namespace Binary64

/-- The quiet value that is not a number, with no payload. -/
def nan (negative : Bool) : Binary64 :=
  ⟨negative, FloatFormat.double.infinityCode + twoPow 51, by decide⟩

/-- The code of a single precision value that is not a number: the top bits of the payload, and
the quiet bit. -/
def singleNaNCode (payload : Nat) : Nat :=
  FloatFormat.single.infinityCode + (twoPow 22 + payload / twoPow 29 % twoPow 22)

/-- The single precision number nearest to a double, ties to even; a finite number beyond the
single range becomes infinity. -/
def toSingle (x : Binary64) : Binary32 :=
  if x.isNaN then
    ⟨x.negative, singleNaNCode (x.code - FloatFormat.double.infinityCode), by
      have h : (x.code - FloatFormat.double.infinityCode) / twoPow 29 % twoPow 22 < twoPow 22 :=
        Nat.mod_lt _ (twoPow_pos 22)
      have hf : FloatFormat.single.infinityCode + 2 * twoPow 22 =
          twoPow FloatFormat.single.codeBits := by decide
      rw [singleNaNCode]
      omega⟩
  else if x.isFinite then
    .ofCode x.negative
      (FloatFormat.single.nearest (x.units * FloatFormat.single.one) FloatFormat.double.one)
      (FloatFormat.single.nearest_le _ _)
  else
    .infinity x.negative

end Binary64

end TenantSql
