import TenantSql.Number.Binary
/-!
# TenantSql.Number.Reading

Numbers read from text: integers, decimals with an optional exponent, and the
words for infinities and for what is not a number. A text is read whole or not
at all; digits are the ASCII ones.
-/

namespace TenantSql

/-- An optional sign: whether it is a minus, and the rest. -/
def readSign : List Char → Bool × List Char
  | '-' :: rest => (true, rest)
  | '+' :: rest => (false, rest)
  | cs => (false, cs)

/-- A natural number: one digit or more and nothing else. -/
def readNat? (cs : List Char) : Option Nat :=
  if !cs.isEmpty && cs.all Char.isDigit then some (Nat.ofDigitChars 10 cs 0) else none

/-- An integer: an optional sign and a natural number. -/
def readInt? (cs : List Char) : Option Int :=
  (readNat? (readSign cs).2).map fun n => if (readSign cs).1 then -(n : Int) else n

/-- The exponent part of a decimal: nothing, or a letter and an integer. -/
def readExponent? : List Char → Option Int
  | [] => some 0
  | c :: rest => if c = 'e' || c = 'E' then readInt? rest else none

/-- The digits after a point, and the rest; no point means no digits. -/
def readFraction : List Char → List Char × List Char
  | '.' :: rest => (rest.takeWhile Char.isDigit, rest.dropWhile Char.isDigit)
  | cs => ([], cs)

/-- A decimal: an optional sign, digits with an optional point and at least one digit, and an
optional exponent. Gives whether it is negative, and the magnitude. -/
def readDecimal? (cs : List Char) : Option (Bool × Decimal) :=
  let body := (readSign cs).2
  let whole := body.takeWhile Char.isDigit
  let (fraction, rest) := readFraction (body.dropWhile Char.isDigit)
  if whole.isEmpty && fraction.isEmpty then
    none
  else
    (readExponent? rest).map fun e =>
      ((readSign cs).1, ⟨Nat.ofDigitChars 10 (whole ++ fraction) 0, e - fraction.length⟩)

/-! ### Pieces of a number at the front of a text

JSON and TOML write a number with digits on both sides of its point. Each piece is given with what
follows it.
-/

/-- Digits; there has to be one. -/
def frontDigits? (cs : List Char) : Option (List Char × List Char) :=
  let ds := cs.takeWhile Char.isDigit
  if ds.isEmpty then none else some (ds, cs.dropWhile Char.isDigit)

/-- The digits of a fraction, with the point in front, if there is one. -/
def frontFraction? : List Char → Option (Option (List Char) × List Char)
  | '.' :: rest => (frontDigits? rest).map fun (ds, rest) => (some ds, rest)
  | cs => some (none, cs)

/-- An exponent, with its letter in front, if there is one. -/
def frontExponent? : List Char → Option (Option Int × List Char)
  | [] => some (none, [])
  | c :: rest =>
    if c = 'e' || c = 'E' then
      let (negative, body) := readSign rest
      (frontDigits? body).map fun (ds, rest) =>
        let n : Int := Nat.ofDigitChars 10 ds 0
        (some (if negative then -n else n), rest)
    else some (none, c :: rest)

/-! ### Words -/

/-- An integer as a 64-bit word, if it is in range. -/
def int64? (n : Int) : Option Int64 :=
  if Int64.minValue.toInt ≤ n && n ≤ Int64.maxValue.toInt then some (Int64.ofInt n) else none

namespace Binary64

/-- A decimal, or a word for an infinity or for no number in any case of letters, with an optional
sign in front. -/
def ofText? (s : String) : Option Binary64 :=
  let cs := s.toList
  match readDecimal? cs with
  | some (negative, d) => some (.ofDecimal negative d)
  | none =>
    let (negative, word) := readSign cs
    match String.ofList (word.map Char.toLower) with
    | "inf" | "infinity" => some (.infinity negative)
    | "nan" => some (nan negative)
    | _ => none

end Binary64

end TenantSql
