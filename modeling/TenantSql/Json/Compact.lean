import TenantSql.Json.Basic
import TenantSql.Keyed
import TenantSql.Number.Shortest
/-!
# TenantSql.Json.Compact

A document on one line: no blanks, members sorted by key with the last of each
repeated key, and only the escapes that JSON demands.
-/

namespace TenantSql.Json

/-- A control character's code in four hexadecimal digits. -/
def hex4 (n : Nat) : List Char :=
  let ds := Nat.toDigits 16 n
  List.replicate (4 - ds.length) '0' ++ ds

/-- One character of a string. -/
def compactChar (c : Char) : List Char :=
  match c with
  | '"' => ['\\', '"']
  | '\\' => ['\\', '\\']
  | '\x08' => ['\\', 'b']
  | '\x0c' => ['\\', 'f']
  | '\n' => ['\\', 'n']
  | '\r' => ['\\', 'r']
  | '\t' => ['\\', 't']
  | c => if c.toNat < 0x20 then ['\\', 'u'] ++ hex4 c.toNat else [c]

/-- A string in quotes. -/
def compactString (s : String) : List Char :=
  '"' :: (s.toList.flatMap compactChar ++ ['"'])

/-- The digits with a point after the first, when there are more. -/
def pointAfterFirst : List Char → List Char
  | [] => []
  | [d] => [d]
  | d :: rest => d :: '.' :: rest

/-- A finite double: the shortest decimal that reads back, halfway to even. It is written
positionally with at least one place from `1e-5` up to `1e16`, and with an exponent outside. -/
def compactReal (x : Binary64) : List Char :=
  let d := FloatFormat.double.shortest .toEven x.code
  let digits := natDigits d.coefficient
  let leading : Int := digits.length - 1 + d.exponent
  let magnitude :=
    if d.coefficient = 0 then "0.0".toList
    else if -5 ≤ leading && leading < 16 then
      if d.places = 0 then d.positional ++ ".0".toList else d.positional
    else
      pointAfterFirst digits ++ 'e' :: (if leading < 0 then '-' else '+') ::
        natDigits leading.natAbs
  if x.negative then '-' :: magnitude else magnitude

/-- A number: an integer that fits 64 bits, with a sign or without, in all its digits; any other
as the nearest double. -/
def compactNumber (n : Number) : List Char :=
  match n.toInt? with
  | some i =>
    if Int64.minValue.toInt ≤ i && i < UInt64.size then (intText i).toList
    else compactReal n.toBinary64
  | none => compactReal n.toBinary64

/-- Texts with commas between. -/
def commaSeparated : List (List Char) → List Char
  | [] => []
  | [t] => t
  | t :: rest => t ++ ',' :: commaSeparated rest

mutual

/-- A document on one line. A string that encodes no text is written empty. -/
def compact : Json → List Char
  | .null => "null".toList
  | .bool true => "true".toList
  | .bool false => "false".toList
  | .number n => compactNumber n
  | .string s => compactString s
  | .unpaired => compactString ""
  | .array items => '[' :: (commaSeparated (compactItems items) ++ [']'])
  | .object members =>
    -- Of members with the same key the last one stays.
    let sorted := (Keyed.ofList (compactMembers members)).entries
    '\x7b' :: (commaSeparated (sorted.map fun m => compactString m.1 ++ ':' :: m.2) ++ ['\x7d'])

/-- Items, each on one line. -/
def compactItems : List Json → List (List Char)
  | [] => []
  | item :: rest => compact item :: compactItems rest

/-- Members with their values on one line. -/
def compactMembers : List (String × Json) → List (String × List Char)
  | [] => []
  | member :: rest => (member.1, compact member.2) :: compactMembers rest

end

end TenantSql.Json
