import TenantSql.Number.Reading
/-!
# TenantSql.Json.Basic

JSON documents as they are written: members in document order with repeated keys
kept, and number literals with all their digits. What a document *means* is left
to its readers:

* `Json.Number.toInt64?` and `Json.Number.toBinary64` are the two readings of a
  number,
* `Json.isReadable` holds of the documents every part of which has a meaning:
  numbers in the range of a double, strings without lone surrogates, bounded
  nesting.
-/

namespace TenantSql

/-- A number literal: its digits as one number, and the power of ten they are multiplied with;
no power for a literal without point and exponent. -/
structure Json.Number where
  negative : Bool
  coefficient : Nat
  exponent : Option Int
deriving DecidableEq, Repr

/-- A JSON document. A string whose escapes leave a surrogate alone encodes no text and is
`unpaired`, and so is an object with such a key. -/
inductive Json where
  | null
  | bool (value : Bool)
  | number (literal : Json.Number)
  | string (text : String)
  | unpaired
  | array (items : List Json)
  | object (members : List (String × Json))

namespace Json

namespace Number

/-- The integer that a literal without point and exponent writes. A negative zero is no integer. -/
def toInt? (n : Number) : Option Int :=
  match n.exponent with
  | some _ => none
  | none =>
    if n.negative then
      if n.coefficient = 0 then none else some (-(n.coefficient : Int))
    else some n.coefficient

/-- The literal as a 64-bit integer, if it writes one in range. -/
def toInt64? (n : Number) : Option Int64 :=
  n.toInt?.bind int64?

/-- The literal's magnitude. -/
def magnitude (n : Number) : Decimal :=
  ⟨n.coefficient, n.exponent.getD 0⟩

/-- The double nearest to the literal. That a reader of documents rounds correctly is assumed here:
one that reads a long literal, such as an integer beyond 64 bits, only approximately can differ in
the last bit of the significand. -/
def toBinary64 (n : Number) : Binary64 :=
  .ofDecimal n.negative n.magnitude

/-- The literal of an integer. -/
def ofInt (n : Int) : Number :=
  ⟨n < 0, n.natAbs, none⟩

end Number

/-- The greatest nesting of arrays and objects that is read. -/
def maxDepth : Nat := 127

mutual

/-- Whether every part of a document has a meaning, with at most `depth` arrays and objects
around a value. -/
def isReadableWithin (depth : Nat) : Json → Bool
  | .null | .bool _ | .string _ => true
  | .number n => n.toBinary64.isFinite
  | .unpaired => false
  | .array items => depth != 0 && areReadableWithin (depth - 1) items
  | .object members => depth != 0 && membersAreReadableWithin (depth - 1) members

/-- Whether every part of items has a meaning. -/
def areReadableWithin (depth : Nat) : List Json → Bool
  | [] => true
  | item :: rest => isReadableWithin depth item && areReadableWithin depth rest

/-- Whether every part of members has a meaning. -/
def membersAreReadableWithin (depth : Nat) : List (String × Json) → Bool
  | [] => true
  | member :: rest => isReadableWithin depth member.2 && membersAreReadableWithin depth rest

end

/-- Whether every part of a document has a meaning. -/
def isReadable (json : Json) : Bool :=
  json.isReadableWithin maxDepth

end Json

end TenantSql
