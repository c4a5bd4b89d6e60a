import TenantSql.Json.Basic
import TenantSql.Text.Basic
/-!
# TenantSql.Json.Token

The words of JSON text. Blanks are the four of the standard, and words are read
by its grammar alone: no leading zeros, a digit on both sides of a point, no
control characters in strings.
-/

namespace TenantSql.Json

/-- A word of JSON text. -/
inductive Token where
  | openArray
  | closeArray
  | openObject
  | closeObject
  | colon
  | comma
  | scalar (value : Json)

namespace Token

/-- Whether a character may stand between words. -/
def isBlank (c : Char) : Bool :=
  c == ' ' || c == '\t' || c == '\n' || c == '\r'

/-- The character of a one-letter escape. -/
def escaped? : Char → Option Char
  | '"' => some '"'
  | '\\' => some '\\'
  | '/' => some '/'
  | 'b' => some '\x08'
  | 'f' => some '\x0c'
  | 'n' => some '\n'
  | 'r' => some '\r'
  | 't' => some '\t'
  | _ => none

/-- The inside of a string up to its closing quote, as code points with surrogates unpaired, and
what follows. -/
def stringPoints? : List Char → Option (List Nat × List Char)
  | '\\' :: 'u' :: a :: b :: c :: d :: rest =>
    match hexNumber? [a, b, c, d], stringPoints? rest with
    | some n, some (points, rest) => some (n :: points, rest)
    | _, _ => none
  | '\\' :: e :: rest =>
    match escaped? e, stringPoints? rest with
    | some c, some (points, rest) => some (c.toNat :: points, rest)
    | _, _ => none
  | c :: rest =>
    if c = '"' then some ([], rest)
    else if c = '\\' || c.toNat < 0x20 then none
    else match stringPoints? rest with
      | some (points, rest) => some (c.toNat :: points, rest)
      | none => none
  | [] => none

/-- Whether a code point is the first of a surrogate pair. -/
def isHighSurrogate (n : Nat) : Bool :=
  0xD800 ≤ n && n ≤ 0xDBFF

/-- Whether a code point is the second of a surrogate pair. -/
def isLowSurrogate (n : Nat) : Bool :=
  0xDC00 ≤ n && n ≤ 0xDFFF

/-- The characters of code points; a high surrogate and the low one after it are one character,
and a surrogate alone is none. -/
def pairSurrogates? : List Nat → Option (List Char)
  | [] => some []
  | [n] => if isHighSurrogate n || isLowSurrogate n then none else some [Char.ofNat n]
  | n :: m :: rest =>
    if isHighSurrogate n then
      if isLowSurrogate m then
        (pairSurrogates? rest).map
          (Char.ofNat (0x10000 + (n - 0xD800) * 0x400 + (m - 0xDC00)) :: ·)
      else none
    else if isLowSurrogate n then none
    else (pairSurrogates? (m :: rest)).map (Char.ofNat n :: ·)

/-- A string after its opening quote, and what follows it. -/
def string? (cs : List Char) : Option (Json × List Char) :=
  (stringPoints? cs).map fun (points, rest) =>
    match pairSurrogates? points with
    | some text => (.string (String.ofList text), rest)
    | none => (.unpaired, rest)

/-- The whole part of a number: a zero alone, or digits that start with none. -/
def wholePart? (cs : List Char) : Option (List Char × List Char) :=
  match frontDigits? cs with
  | some ('0' :: _ :: _, _) => none
  | found => found

/-- A number and what follows it. -/
def number? (cs : List Char) : Option (Number × List Char) := do
  let (negative, body) :=
    match cs with
    | '-' :: rest => (true, rest)
    | cs => (false, cs)
  let (whole, rest) ← wholePart? body
  let (fraction, rest) ← frontFraction? rest
  let (exponent, rest) ← frontExponent? rest
  let fractionDigits := fraction.getD []
  -- Only a literal with neither point nor exponent writes an integer.
  let scaled :=
    if fraction.isNone && exponent.isNone then none
    else some (exponent.getD 0 - fractionDigits.length)
  some (⟨negative, Nat.ofDigitChars 10 (whole ++ fractionDigits) 0, scaled⟩, rest)

/-- The word at the front and what follows it. -/
def front? : List Char → Option (Token × List Char)
  | '[' :: rest => some (.openArray, rest)
  | ']' :: rest => some (.closeArray, rest)
  | '\x7b' :: rest => some (.openObject, rest)
  | '\x7d' :: rest => some (.closeObject, rest)
  | ':' :: rest => some (.colon, rest)
  | ',' :: rest => some (.comma, rest)
  | '"' :: rest => (string? rest).map fun (s, rest) => (.scalar s, rest)
  | 'n' :: 'u' :: 'l' :: 'l' :: rest => some (.scalar .null, rest)
  | 't' :: 'r' :: 'u' :: 'e' :: rest => some (.scalar (.bool true), rest)
  | 'f' :: 'a' :: 'l' :: 's' :: 'e' :: rest => some (.scalar (.bool false), rest)
  | cs => (number? cs).map fun (n, rest) => (.scalar (.number n), rest)

/-- The words of a text. Every word takes at least one character; the test that it does makes the
recursion end. -/
def scan? (cs : List Char) : Option (List Token) :=
  match cs with
  | [] => some []
  | c :: rest =>
    if isBlank c then scan? rest
    else match front? (c :: rest) with
      | none => none
      | some (token, after) =>
        if _h : after.length < (c :: rest).length then (scan? after).map (token :: ·) else none
termination_by cs.length
decreasing_by
  · exact Nat.lt_succ_self _
  · exact _h

end Token

end TenantSql.Json
