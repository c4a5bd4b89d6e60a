import TenantSql.Text.Basic
/-!
# TenantSql.Toml.Lexical

The characters of TOML text: blanks, comments, and the four kinds of strings.
Readers take characters and give what they read with the characters that follow.
-/

namespace TenantSql.Toml

/-- Characters that may stand in text: all but the controls, of which only the tab may. -/
def isText (c : Char) : Bool :=
  c == '\t' || (0x20 ≤ c.toNat && c.toNat != 0x7F)

/-- Skips blanks inside a line. -/
def skipBlanks (cs : List Char) : List Char :=
  cs.dropWhile fun c => c == ' ' || c == '\t'

/-- Skips the rest of a comment, up to the end of its line. -/
def skipComment (cs : List Char) : List Char :=
  cs.dropWhile isText

/-- Skips blanks, comments and line ends. -/
def skipLines (cs : List Char) : List Char :=
  match cs with
  | ' ' :: rest => skipLines rest
  | '\t' :: rest => skipLines rest
  | '\n' :: rest => skipLines rest
  | '\r' :: '\n' :: rest => skipLines rest
  | '#' :: rest => skipLines (skipComment rest)
  | cs => cs
termination_by cs.length
decreasing_by
  all_goals simp only [List.length_cons]
  · omega
  · omega
  · omega
  · omega
  · have := (List.dropWhile_sublist isText (l := rest)).length_le
    simp only [skipComment]
    omega

/-- The end of a line: what follows the line end, or the end of the text. -/
def lineEnd? : List Char → Option (List Char)
  | [] => some []
  | '\n' :: rest => some rest
  | '\r' :: '\n' :: rest => some rest
  | _ => none

/-- The character of a code point; surrogates and numbers past the last are none. -/
def codePoint? (n : Nat) : Option Char :=
  if n.isValidChar then some (Char.ofNat n) else none

/-- The character of an escape with digits. -/
def escapedPoint? (ds : List Char) : Option Char :=
  (hexNumber? ds).bind codePoint?

/-- The character of a one-letter escape. -/
def escapedLetter? : Char → Option Char
  | 'b' => some '\x08'
  | 't' => some '\t'
  | 'n' => some '\n'
  | 'f' => some '\x0c'
  | 'r' => some '\r'
  | 'e' => some '\x1b'
  | '"' => some '"'
  | '\\' => some '\\'
  | _ => none

/-- Text so far, and what follows it. -/
abbrev Reading := Option (List Char × List Char)

/-- Puts a character in front of what is read next. -/
def Reading.after (c : Option Char) (rest : Reading) : Reading :=
  match c, rest with
  | some c, some (text, rest) => some (c :: text, rest)
  | _, _ => none

/-- A string in double quotes after the opening one. -/
def basicBody : List Char → Reading
  | '"' :: rest => some ([], rest)
  | '\\' :: 'x' :: a :: b :: rest => .after (escapedPoint? [a, b]) (basicBody rest)
  | '\\' :: 'u' :: a :: b :: c :: d :: rest =>
    .after (escapedPoint? [a, b, c, d]) (basicBody rest)
  | '\\' :: 'U' :: a :: b :: c :: d :: e :: f :: g :: h :: rest =>
    .after (escapedPoint? [a, b, c, d, e, f, g, h]) (basicBody rest)
  | '\\' :: e :: rest => .after (escapedLetter? e) (basicBody rest)
  | c :: rest => if isText c && c != '\\' then .after (some c) (basicBody rest) else none
  | [] => none

/-- A string in single quotes after the opening one. -/
def literalBody : List Char → Reading
  | '\'' :: rest => some ([], rest)
  | c :: rest => if isText c then .after (some c) (literalBody rest) else none
  | [] => none

/-- Three quotes close a string of several lines; up to two more before them belong to it. Gives
how many belong to it, and what follows, after three quotes were seen. -/
def closingQuotes (quote : Char) : List Char → List Char × List Char
  | a :: b :: rest =>
    if a = quote then
      if b = quote then ([quote, quote], rest) else ([quote], b :: rest)
    else ([], a :: b :: rest)
  | [a] => if a = quote then ([quote], []) else ([], [a])
  | [] => ([], [])

/-- What a backslash before a line end skips: at first blanks up to the line end, then all blanks
and line ends. -/
inductive Trim where
  | no
  | toLineEnd
  | all
deriving DecidableEq

/-- A string of several lines in double quotes, after the opening ones. -/
def basicLines (trim : Trim) : List Char → Reading
  | '\r' :: '\n' :: rest =>
    if trim = .no then .after (some '\r') (.after (some '\n') (basicLines .no rest))
    else basicLines .all rest
  | '\n' :: rest =>
    if trim = .no then .after (some '\n') (basicLines .no rest) else basicLines .all rest
  | ' ' :: rest =>
    if trim = .no then .after (some ' ') (basicLines .no rest) else basicLines trim rest
  | '\t' :: rest =>
    if trim = .no then .after (some '\t') (basicLines .no rest) else basicLines trim rest
  | '"' :: '"' :: '"' :: rest =>
    if trim = .toLineEnd then none else some (closingQuotes '"' rest)
  | '\\' :: 'x' :: a :: b :: rest =>
    if trim = .toLineEnd then none
    else .after (escapedPoint? [a, b]) (basicLines .no rest)
  | '\\' :: 'u' :: a :: b :: c :: d :: rest =>
    if trim = .toLineEnd then none
    else .after (escapedPoint? [a, b, c, d]) (basicLines .no rest)
  | '\\' :: 'U' :: a :: b :: c :: d :: e :: f :: g :: h :: rest =>
    if trim = .toLineEnd then none
    else .after (escapedPoint? [a, b, c, d, e, f, g, h]) (basicLines .no rest)
  | '\\' :: e :: rest =>
    if trim = .toLineEnd then none
    -- A backslash at the end of a line, be it before blanks, joins the next line.
    else if e = '\n' then basicLines .all rest
    else if e = ' ' || e = '\t' || e = '\r' then
      if e = '\r' && rest.head? ≠ some '\n' then none else basicLines .toLineEnd rest
    else .after (escapedLetter? e) (basicLines .no rest)
  | c :: rest =>
    if isText c && c != '\\' && trim ≠ .toLineEnd then .after (some c) (basicLines .no rest)
    else none
  | [] => none

/-- A string of several lines in single quotes, after the opening ones. -/
def literalLines : List Char → Reading
  | '\r' :: '\n' :: rest => .after (some '\r') (.after (some '\n') (literalLines rest))
  | '\n' :: rest => .after (some '\n') (literalLines rest)
  | '\'' :: '\'' :: '\'' :: rest => some (closingQuotes '\'' rest)
  | c :: rest => if isText c then .after (some c) (literalLines rest) else none
  | [] => none

/-- A line end directly after the opening quotes is not part of a string. -/
def skipFirstLineEnd : List Char → List Char
  | '\n' :: rest => rest
  | '\r' :: '\n' :: rest => rest
  | cs => cs

/-- A string of any kind. -/
def string? : List Char → Reading
  | '"' :: '"' :: '"' :: rest => basicLines .no (skipFirstLineEnd rest)
  | '\'' :: '\'' :: '\'' :: rest => literalLines (skipFirstLineEnd rest)
  | '"' :: rest => basicBody rest
  | '\'' :: rest => literalBody rest
  | _ => none

/-! ### Keys -/

/-- Characters of a key without quotes. -/
def isBareKey (c : Char) : Bool :=
  c.isAlphanum || c == '_' || c == '-'

/-- One part of a key. -/
def keyPart? : List Char → Option (String × List Char)
  | '"' :: rest => (basicBody rest).map fun (key, rest) => (String.ofList key, rest)
  | '\'' :: rest => (literalBody rest).map fun (key, rest) => (String.ofList key, rest)
  | cs =>
    let key := cs.takeWhile isBareKey
    if key.isEmpty then none else some (String.ofList key, cs.dropWhile isBareKey)

/-- The parts of a key, with points between, and blanks around the points. -/
def key? (cs : List Char) : Option (List String × List Char) :=
  match keyPart? (skipBlanks cs) with
  | none => none
  | some (part, after) =>
    match skipBlanks after with
    | '.' :: rest =>
      if _h : rest.length < cs.length then
        (key? rest).map fun (parts, rest) => (part :: parts, rest)
      else none
    | rest => some ([part], rest)
termination_by cs.length

end TenantSql.Toml
