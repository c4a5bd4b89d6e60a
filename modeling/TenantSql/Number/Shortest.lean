import TenantSql.Number.Binary
/-!
# TenantSql.Number.Shortest

The shortest decimal that reads back as a given binary number.

The search goes over the grids of multiples of a power of ten, from the coarsest
that can hold a neighbour of the number to finer ones, and stops at the first
grid on which one of the number's two neighbours reads back. A coarser grid
means fewer digits, so the first hit has the fewest. If both neighbours read
back, the nearer one is taken; `Tie` says what happens halfway. Reading back is
tested by reading, so the answer reads back by construction.

The text of a double is that decimal, always positional, whole numbers without a point, and
with a minus sign also before a zero (`Binary64.display`).
-/

namespace TenantSql

/-- Which of two equally near decimals is written. -/
inductive Tie where
  | up
  | toEven
deriving DecidableEq, Repr

/-- The greatest `e` with `10 ^ e ≤ num / den`, for positive `num` and `den`. -/
def leadingExponent (num den : Nat) : Int :=
  let shift := if den ≤ num then 0 else (natDigits (den / num)).length
  ((natDigits (num * tenPow shift / den)).length : Int) - 1 - shift

namespace FloatFormat

variable (f : FloatFormat)

/-- A neighbour of the number on the grid of multiples of `10 ^ k` that reads back, if there is
one. The number is `num / den` steps of the grid. -/
def onGrid? (tie : Tie) (code : Nat) (k : Int) : Option Decimal :=
  let num := f.units code * tenPow (-k).toNat
  let den := f.one * tenPow k.toNat
  let below : Decimal := ⟨num / den, k⟩
  let above : Decimal := ⟨num / den + 1, k⟩
  let r := num % den
  let nearer :=
    if 2 * r < den then below
    else if den < 2 * r then above
    else match tie with
      | .up => above
      | .toEven => if below.coefficient % 2 = 0 then below else above
  -- Both neighbours may read back, and then the nearer one is the answer.
  match f.ofDecimal below == code, f.ofDecimal above == code with
  | true, true => some nearer
  | true, false => some below
  | false, true => some above
  | false, false => none

/-- The number itself as a decimal: a unit is a power of two, so its multiples are decimals. -/
def exactDecimal (code : Nat) : Decimal :=
  ⟨f.units code * Nat.pow 5 f.unitExponent, -f.unitExponent⟩

/-- Tries `fuel` grids from `10 ^ k` to finer ones; the exact decimal stands at the end. -/
def shortestFrom (tie : Tie) (code : Nat) (k : Int) : Nat → Decimal
  | 0 => f.exactDecimal code
  | fuel + 1 => (f.onGrid? tie code k).getD (shortestFrom tie code (k - 1) fuel)

/-- The shortest decimal that reads back as the number with this code. Eighteen grids hold every
decimal of at most seventeen digits, which is enough for double precision. -/
def shortest (tie : Tie) (code : Nat) : Decimal :=
  if f.units code = 0 then ⟨0, 0⟩
  else f.shortestFrom tie code (leadingExponent (f.units code) f.one + 1) 18

end FloatFormat

namespace Binary64

/-- The shortest decimal of the magnitude as it is displayed; halfway goes up. -/
def decimal (x : Binary64) : Decimal :=
  FloatFormat.double.shortest .up x.code

/-- The text of a double; the sign of what is not a number is not shown. -/
def display (x : Binary64) : String :=
  if x.isNaN then
    "NaN"
  else
    let magnitude := if x.isFinite then x.decimal.positional else "inf".toList
    String.ofList (if x.negative then '-' :: magnitude else magnitude)

end Binary64

end TenantSql
