/-!
# TenantSql.Text.Quoted

Quoted text in SQL: a quote character around it, and the same character written
twice inside. Identifiers take the double quote, string literals the single one.
`Quoted.read?` is the reader that Postgres applies: it takes the text up to the
first quote that stands alone. `read?_encode_append` says that it undoes
`encode`, whatever follows the closing quote, as long as that is no quote.
-/

namespace TenantSql.Quoted

/-- The inside of a quoted text. -/
def escape (quote : Char) : List Char → List Char
  | [] => []
  | c :: rest => if c = quote then quote :: quote :: escape quote rest else c :: escape quote rest

/-- A text in quotes. -/
def encode (quote : Char) (cs : List Char) : List Char :=
  quote :: (escape quote cs ++ [quote])

/-- Reads after the opening quote: the text up to the quote that stands alone, and what follows
it. -/
def readInside? (quote : Char) : List Char → Option (List Char × List Char)
  | [] => none
  | [c] => if c = quote then some ([], []) else none
  | c :: d :: rest =>
    if c = quote then
      if d = quote then (readInside? quote rest).map fun p => (quote :: p.1, p.2)
      else some ([], d :: rest)
    else (readInside? quote (d :: rest)).map fun p => (c :: p.1, p.2)

/-- Reads a quoted text at the front: its content, and what follows the closing quote. -/
def read? (quote : Char) : List Char → Option (List Char × List Char)
  | [] => none
  | c :: rest => if c = quote then readInside? quote rest else none

theorem readInside?_escape_append (quote : Char) (cs rest : List Char)
    (h : rest.head? ≠ some quote) :
    readInside? quote (escape quote cs ++ quote :: rest) = some (cs, rest) := by
  induction cs with
  | nil =>
    cases rest with
    | nil => simp [escape, readInside?]
    | cons d rest =>
      have hd : d ≠ quote := by simpa using h
      simp [escape, readInside?, hd]
  | cons c cs ih =>
    by_cases hc : c = quote
    · subst hc
      simp [escape, readInside?, ih]
    · obtain ⟨d, tail, hd⟩ : ∃ d tail, escape quote cs ++ quote :: rest = d :: tail := by
        cases hs : escape quote cs ++ quote :: rest with
        | nil => simp at hs
        | cons d tail => exact ⟨d, tail, rfl⟩
      rw [hd] at ih
      simp [escape, hc, hd, readInside?, ih]

/-- Reading undoes quoting, whatever follows that does not begin with the quote itself. -/
theorem read?_encode_append (quote : Char) (cs rest : List Char) (h : rest.head? ≠ some quote) :
    read? quote (encode quote cs ++ rest) = some (cs, rest) := by
  simpa [encode, read?] using readInside?_escape_append quote cs rest h

/-- A text in double quotes, as an identifier is written. -/
def identifier (s : String) : String :=
  String.ofList (encode '"' s.toList)

/-- A text in single quotes, as a string literal is written. -/
def literal (s : String) : String :=
  String.ofList (encode '\'' s.toList)

end TenantSql.Quoted
