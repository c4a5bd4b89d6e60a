import TenantSql.Number.Shortest
import TenantSql.Number.Reading
import TenantSql.Text.Quoted
import TenantSql.Error
/-!
# TenantSql.Value.Basic

The scalars that are bound to placeholders. Filter values arrive as text and
rows as scalars; both become a `Value`, which meets the type of its column only
when the statement runs.
-/

namespace TenantSql

/-- A scalar to bind. -/
inductive Value where
  | null
  | int (value : Int64)
  | float (value : Binary64)
  | text (value : String)

namespace Value

/-- Equality with floats compared as numbers. -/
def eqv : Value → Value → Bool
  | null, null => true
  | int a, int b => a == b
  | float a, float b => a == b
  | text a, text b => a == b
  | _, _ => false

instance : BEq Value := ⟨eqv⟩

/-- The value that the text of a filter on a number means: an integer in range, else a decimal
with a finite double near it, else the text itself. -/
def parseNumeric (raw : String) : Value :=
  match (readInt? raw.toList).bind int64? with
  | some n => .int n
  | none =>
    match readDecimal? raw.toList with
    | some (negative, d) =>
      -- A decimal beyond the range of doubles stays text, so no infinity is ever bound.
      let x : Binary64 := .ofDecimal negative d
      if x.isFinite then .float x else .text raw
    | none => .text raw

/-- Whether the value is null. -/
def isNull : Value → Bool
  | null => true
  | _ => false

/-- Whether the value is a float that is no integer. Infinities and what is not a number count,
having no integer to be. -/
def isFractional : Value → Bool
  | float x => x.toInt?.isNone
  | _ => false

/-- The value as an SQL literal. -/
def literal : Value → String
  | null => "NULL"
  | int n => intText n.toInt
  | float x => x.display
  | text s => Quoted.literal s

/-- The scalar of a JSON document: an integer where one is written in range, else the nearest
double. -/
def ofJson : Json → Except ValidationError Value
  | .null => .ok .null
  | .string s => .ok (.text s)
  | .number n =>
    match n.toInt64? with
    | some i => .ok (.int i)
    | none => .ok (.float n.toBinary64)
  | other => .error (.notAScalar other)

end Value

end TenantSql
