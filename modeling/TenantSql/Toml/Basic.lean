import TenantSql.Number.Decimal
/-!
# TenantSql.Toml.Basic

Values of the settings format TOML. A number is told by its form alone, so a
literal may be an integer or a float and still write no number; that is a fault
only where the value is read. `Toml.isReadable` holds of the values that can be
read throughout. Floats and dates carry no content, since no setting is one.
-/

namespace TenantSql

/-- A TOML value. An integer is none if its literal writes no number in range, and a float says
whether its literal does. -/
inductive Toml where
  | string (text : String)
  | integer (value : Option Int)
  | float (inRange : Bool)
  | boolean (value : Bool)
  | datetime
  | array (items : List Toml)
  | table (entries : List (String × Toml))

namespace Toml

/-- The integers that a value may write: those of 128 bits, with a sign or without. -/
def inRange (n : Int) : Bool :=
  -(twoPow 127 : Int) ≤ n && n < twoPow 128

/-- How deep arrays and tables in braces may nest, and how many parts a key may have. -/
def maxDepth : Nat := 80

mutual

/-- Whether every part of a value can be read. -/
def isReadable : Toml → Bool
  | .integer value => value.isSome
  | .float inRange => inRange
  | .array items => areReadable items
  | .table entries => entriesAreReadable entries
  | .string _ | .boolean _ | .datetime => true

/-- Whether every part of items can be read. -/
def areReadable : List Toml → Bool
  | [] => true
  | item :: rest => isReadable item && areReadable rest

/-- Whether every part of entries can be read. -/
def entriesAreReadable : List (String × Toml) → Bool
  | [] => true
  | entry :: rest => isReadable entry.2 && entriesAreReadable rest

end

end Toml

end TenantSql
