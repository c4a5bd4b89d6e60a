import TenantSql.Number.Reading
import TenantSql.Text.Basic
/-!
# TenantSql.Connection.Address

Internet addresses in text: four decimal numbers with points, or eight
hexadecimal ones with colons, of which one run of zeros may be left out and the
last two may be written like an address of four numbers.
-/

namespace TenantSql

/-- An internet address. -/
inductive IpAddress where
  | v4 (octets : List Nat)
  | v6 (groups : List Nat)
deriving DecidableEq, Repr

namespace IpAddress

/-- A decimal number below 256 with no zero in front. -/
def octet? (cs : List Char) : Option Nat :=
  if cs.length ≤ 3 && (cs.head? != some '0' || cs.length == 1) then
    (readNat? cs).filter (· < 256)
  else none

/-- The numbers of an address of four. -/
def octets? (cs : List Char) : Option (List Nat) :=
  let pieces := Pieces.split '.' cs
  if pieces.length = 4 then pieces.mapM octet? else none

/-- A hexadecimal number of one to four digits. -/
def group? (cs : List Char) : Option Nat :=
  if cs.isEmpty || 4 < cs.length then none else hexNumber? cs

/-- The last pieces of an address of eight: numbers, or one address of four in the place of the
last two. -/
def tailGroups? : List (List Char) → Option (List Nat)
  | [] => some []
  | [piece] =>
    match octets? piece with
    | some [a, b, c, d] => some [a * 256 + b, c * 256 + d]
    | _ => (group? piece).map ([·])
  | piece :: rest => do
    let g ← group? piece
    return g :: (← tailGroups? rest)

/-- Splits at the first two colons in a row. -/
def splitGap : List Char → Option (List Char × List Char)
  | ':' :: ':' :: rest => some ([], rest)
  | c :: rest => (splitGap rest).map fun (before, after) => (c :: before, after)
  | [] => none

/-- The groups of one side of a gap; an empty side has none. -/
def sideGroups? (read : List (List Char) → Option (List Nat)) (cs : List Char) :
    Option (List Nat) :=
  if cs.isEmpty then some [] else read (Pieces.split ':' cs)

/-- The groups of an address of eight. -/
def groups? (cs : List Char) : Option (List Nat) :=
  match splitGap cs with
  | none => (tailGroups? (Pieces.split ':' cs)).filter (·.length == 8)
  | some (before, after) => do
    let front ← sideGroups? (·.mapM group?) before
    let back ← sideGroups? tailGroups? after
    if front.length + back.length ≤ 7 then
      some (front ++ List.replicate (8 - front.length - back.length) 0 ++ back)
    else none

/-- The address that a text writes. -/
def parse? (s : String) : Option IpAddress :=
  match octets? s.toList with
  | some octets => some (.v4 octets)
  | none => (groups? s.toList).map .v6

end IpAddress

end TenantSql
