import TenantSql.Text.Basic
import TenantSql.Text.Utf8
/-!
# TenantSql.Text.QueryString

Percent-encoding, and the query strings of URLs in the form that HTML forms send.

On bytes, `%` and two hexadecimal digits stand for one byte, and a `%` without two digits
after it stands for itself. A query string is pieces between `&`, with a key and a value around
the first `=`, `+` for a blank, and percent-encoded UTF-8. All splitting is on bytes and comes
before any decoding.
-/

namespace TenantSql

namespace Percent

/-- The value of a hexadecimal digit in either case. -/
def hexDigit? (b : UInt8) : Option UInt8 :=
  if 0x30 ≤ b && b ≤ 0x39 then some (b - 0x30)
  else if 0x41 ≤ b && b ≤ 0x46 then some (b - 0x37)
  else if 0x61 ≤ b && b ≤ 0x66 then some (b - 0x57)
  else none

/-- The byte that stands at the front after a `%`, if two digits do. -/
def pair? (high low : UInt8) : Option UInt8 :=
  match hexDigit? high, hexDigit? low with
  | some h, some l => some (16 * h + l)
  | _, _ => none

/-- Each `%` with two digits replaced by its byte. -/
def decode : List UInt8 → List UInt8
  | [] => []
  | [a] => [a]
  | [a, b] => [a, b]
  | a :: high :: low :: rest =>
    if a = 0x25 then
      match pair? high low with
      | some b => b :: decode rest
      | none => a :: decode (high :: low :: rest)
    else a :: decode (high :: low :: rest)

theorem decode_cons_of_ne {a : UInt8} (ha : a ≠ 0x25) (rest : List UInt8) :
    decode (a :: rest) = a :: decode rest := by
  match rest with
  | [] => rfl
  | [_] => rfl
  | _ :: _ :: _ => rw [decode, if_neg ha]

theorem decode_pair {high low b : UInt8} (h : pair? high low = some b) (rest : List UInt8) :
    decode (0x25 :: high :: low :: rest) = b :: decode rest := by
  rw [decode, if_pos rfl, h]

end Percent

namespace QueryString

/-- The byte that a plus sign stands for, or the byte itself. -/
def plusToBlank (b : UInt8) : UInt8 :=
  if b = 0x2B then 0x20 else b

/-- The text of a key or a value. -/
def decode (bytes : List UInt8) : String :=
  Utf8.decodeLossy (Percent.decode (bytes.map plusToBlank))

/-- The pair of a piece. -/
def pair (piece : List UInt8) : String × String :=
  let (key, value) := Pieces.splitFirst 0x3D piece
  (decode key, decode value)

/-- The pairs of a query string; empty pieces give none. -/
def pairs (bytes : List UInt8) : List (String × String) :=
  ((Pieces.split 0x26 bytes).filter fun piece => !piece.isEmpty).map pair

/-- A separator between two query strings is one between their pairs. -/
theorem pairs_append (as bs : List UInt8) : pairs (as ++ 0x26 :: bs) = pairs as ++ pairs bs := by
  simp [pairs, Pieces.split_append]

/-- A piece with something in it is one pair. -/
theorem pairs_piece {piece : List UInt8} (h : 0x26 ∉ piece) (hne : piece ≠ []) :
    pairs piece = [pair piece] := by
  simp [pairs, Pieces.split_of_not_mem _ _ h, hne]

theorem pair_append {key : List UInt8} (h : 0x3D ∉ key) (value : List UInt8) :
    pair (key ++ 0x3D :: value) = (decode key, decode value) := by
  rw [pair, Pieces.splitFirst_append _ h]

end QueryString

end TenantSql
