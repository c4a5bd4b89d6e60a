import TenantSql.Number.Reading
import TenantSql.Text.Basic
import TenantSql.Toml.Basic
/-!
# TenantSql.Toml.Scalar

Values without quotes or brackets: booleans, integers in four bases, floats, and
dates and times. Digits may have single underscores between them.

The form that makes a literal a number is loose. Digits may be missing after the
mark of a base, and behind an underscore of a decimal integer anything may stand
that has hexadecimal digits next to its underscores. Such a literal is an integer
that writes no number.
-/

namespace TenantSql.Toml

/-- The number that digits in some base write. -/
def ofDigits (base : Nat) (ds : List Char) : Nat :=
  ds.foldl (fun n d => n * base + (hexDigit? d).getD 0) 0

/-- Digits after `0x`. -/
def isHexDigit (c : Char) : Bool := (hexDigit? c).isSome

/-- Digits after `0o`. -/
def isOctalDigit (c : Char) : Bool := '0' ≤ c && c ≤ '7'

/-- Digits after `0b`. -/
def isBinaryDigit (c : Char) : Bool := c == '0' || c == '1'

/-! ### Underscores -/

/-- Whether every underscore after the first character stands between two digits. The first
character is for the caller to look at. -/
def isSeparated (isDigit : Char → Bool) : List Char → Bool
  | a :: '_' :: b :: rest => isDigit a && isDigit b && isSeparated isDigit (b :: rest)
  | [_, '_'] => false
  | _ :: rest => isSeparated isDigit rest
  | [] => true

/-- The characters of a number without underscores, if the first is a digit and every underscore
stands between digits. -/
def withoutUnderscores? (isDigit : Char → Bool) (cs : List Char) : Option (List Char) :=
  if cs.head?.any isDigit && isSeparated isDigit cs then some (cs.filter (· != '_')) else none

/-! ### Integers and floats -/

/-- The integer that a literal writes, if it is one and in range. -/
def integerOf (negative : Bool) (n : Option Nat) : Toml :=
  .integer ((n.map fun n => if negative then -(n : Int) else n).filter inRange)

/-- An integer after the mark of its base. -/
def marked? (base : Nat) (isDigit : Char → Bool) (cs : List Char) : Option Toml :=
  if cs.isEmpty then some (.integer none)
  else match withoutUnderscores? isDigit cs with
    | some ds => if ds.all isDigit then some (integerOf false (ofDigits base ds)) else none
    | none => none

/-- Whether digits begin with a zero that is not all of them. -/
def hasLeadingZero : List Char → Bool
  | '0' :: _ :: _ => true
  | _ => false

/-- The magnitude of a float without underscores. -/
def magnitude? (cs : List Char) : Option Decimal := do
  let (whole, rest) ← frontDigits? cs
  let (fraction, rest) ← frontFraction? rest
  let (exponent, rest) ← frontExponent? rest
  guard rest.isEmpty
  let fraction := fraction.getD []
  return ⟨Nat.ofDigitChars 10 (whole ++ fraction) 0, exponent.getD 0 - fraction.length⟩

/-- Characters that make a number a float: a point, and the letter of an exponent. -/
def isFloatMark (c : Char) : Bool := c == '.' || c == 'e' || c == 'E'

/-- A float after its sign. The zero in front that is not allowed is one before more digits of the
whole part. -/
def float? (cs : List Char) : Option Toml :=
  let whole := (cs.takeWhile fun c => !isFloatMark c).filter Char.isDigit
  if cs.head? == some '0' && hasLeadingZero whole then none
  else match (withoutUnderscores? Char.isDigit cs).bind magnitude? with
    | some d => some (.float (BinaryFloat.ofDecimal false d : Binary64).isFinite)
    | none => none

/-- A decimal integer after its sign: digits, or a first digit group with anything that looks like
more of them behind underscores. -/
def integer? (negative : Bool) (cs : List Char) : Option Toml :=
  if hasLeadingZero cs then none
  else match readNat? cs with
    | some n => some (integerOf negative n)
    | none =>
      if (cs.dropWhile Char.isDigit).head? == some '_' then
        (withoutUnderscores? isHexDigit cs).map fun ds => integerOf negative (readNat? ds)
      else none

/-- A number without the mark of a base, after its sign. -/
def unmarked? (negative : Bool) (cs : List Char) : Option Toml :=
  if cs == ['i', 'n', 'f'] || cs == ['n', 'a', 'n'] then some (.float true)
  else if cs.any isFloatMark then float? cs
  else integer? negative cs

/-- A number; the mark of a base goes without a sign. -/
def number? : List Char → Option Toml
  | '0' :: 'x' :: ds => marked? 16 isHexDigit ds
  | '0' :: 'o' :: ds => marked? 8 isOctalDigit ds
  | '0' :: 'b' :: ds => marked? 2 isBinaryDigit ds
  | '+' :: cs => unmarked? false cs
  | '-' :: cs => unmarked? true cs
  | cs => unmarked? false cs

/-! ### Dates and times -/

/-- A number of two digits up to a greatest one, and what follows. -/
def twoDigits? (greatest : Nat) : List Char → Option (Nat × List Char)
  | a :: b :: rest =>
    if a.isDigit && b.isDigit && ofDigits 10 [a, b] ≤ greatest then
      some (ofDigits 10 [a, b], rest)
    else none
  | _ => none

/-- Whether February has a day more. -/
def isLeapYear (y : Nat) : Bool :=
  y % 4 == 0 && (y % 100 != 0 || y % 400 == 0)

/-- Number of days of a month of a year. -/
def daysInMonth (y m : Nat) : Nat :=
  if m = 2 then (if isLeapYear y then 29 else 28)
  else if m = 4 || m = 6 || m = 9 || m = 11 then 30
  else 31

/-- A date, and what follows. -/
def afterDate? : List Char → Option (List Char)
  | a :: b :: c :: d :: '-' :: rest => do
    guard ([a, b, c, d].all Char.isDigit)
    let (month, rest) ← twoDigits? 12 rest
    let '-' :: rest := rest | none
    let (day, rest) ← twoDigits? 31 rest
    guard (1 ≤ month && 1 ≤ day && day ≤ daysInMonth (ofDigits 10 [a, b, c, d]) month)
    return rest
  | _ => none

/-- The fraction of a second, if there is one, and what follows. -/
def afterFraction? : List Char → Option (List Char)
  | '.' :: rest =>
    if (rest.takeWhile Char.isDigit).isEmpty then none else some (rest.dropWhile Char.isDigit)
  | cs => some cs

/-- A time of day, with or without seconds, and what follows. -/
def afterTime? (cs : List Char) : Option (List Char) := do
  let (_, rest) ← twoDigits? 23 cs
  let ':' :: rest := rest | none
  let (_, rest) ← twoDigits? 59 rest
  match rest with
  | ':' :: rest => do
    let (_, rest) ← twoDigits? 60 rest
    afterFraction? rest
  | rest => some rest

/-- Whether characters write the distance from universal time. -/
def isOffset : List Char → Bool
  | ['Z'] | ['z'] => true
  | c :: rest =>
    (c == '+' || c == '-') &&
      match twoDigits? 23 rest with
      | some (_, ':' :: rest) =>
        match twoDigits? 59 rest with
        | some (_, []) => true
        | _ => false
      | _ => false
  | [] => false

/-- Whether characters write a time with at most an offset behind it. -/
def isTimeWithOffset (cs : List Char) : Bool :=
  match afterTime? cs with
  | some [] => true
  | some rest => isOffset rest
  | none => false

/-- Whether characters write a date, a time, or both. -/
def isDatetime (cs : List Char) : Bool :=
  match afterDate? cs with
  | some [] => true
  | some (separator :: time) =>
    (separator == 'T' || separator == 't' || separator == ' ') && isTimeWithOffset time
  | none => afterTime? cs == some []

/-! ### Scalars -/

/-- Characters that end a scalar. -/
def endsScalar (c : Char) : Bool :=
  c ∈ ['=', ',', '[', ']', '\x7b', '\x7d', '#', ' ', '\t', '\r', '\n']

/-- The characters of the scalar at the front, and what follows. A blank between a date and a
digit belongs to it. -/
def scalarChars (cs : List Char) : List Char × List Char :=
  let word := cs.takeWhile fun c => !endsScalar c
  let after := cs.dropWhile fun c => !endsScalar c
  match afterDate? word, after with
  | some [], ' ' :: d :: rest =>
    if d.isDigit then
      (word ++ ' ' :: (d :: rest).takeWhile fun c => !endsScalar c,
        (d :: rest).dropWhile fun c => !endsScalar c)
    else (word, after)
  | _, _ => (word, after)

/-- The scalar that characters write. -/
def scalarOf? (word : List Char) : Option Toml :=
  if word == "true".toList then some (.boolean true)
  else if word == "false".toList then some (.boolean false)
  else match number? word with
    | some n => some n
    | none => if isDatetime word then some .datetime else none

/-- The scalar at the front, and what follows. -/
def scalar? (cs : List Char) : Option (Toml × List Char) :=
  let (word, rest) := scalarChars cs
  (scalarOf? word).map fun v => (v, rest)

end TenantSql.Toml
