import TenantSql.Error
import TenantSql.Text.Quoted
/-!
# TenantSql.Ident

Names that stand in a statement. Names cannot be bound like values, so a text becomes part of a
statement only through these checks.

* `Ident` is a name that stands as it is: `[A-Za-z_][A-Za-z0-9_$]*`.
* `Schema` is the schema of a tenant. Any text but the empty one is a schema name, as long as
  Postgres can store it, so a schema is always written in quotes.
-/

namespace TenantSql

/-- Whether a name may start with the character: an ASCII letter or an underscore. -/
def isIdentStart (c : Char) : Bool :=
  c == '_' || c.isAlpha

/-- Whether a name may go on with the character. -/
def isIdentRest (c : Char) : Bool :=
  c == '_' || c == '$' || c.isAlphanum

/-- Whether characters form a name. -/
def isIdent : List Char → Bool
  | [] => false
  | c :: rest => isIdentStart c && rest.all isIdentRest

/-- A name of a table, a column or a constraint. -/
structure Ident where
  text : String
  valid : isIdent text.toList = true

namespace Ident

instance : DecidableEq Ident := fun a b =>
  if h : a.text = b.text then .isTrue (by cases a; cases b; simp_all)
  else .isFalse fun hab => h (hab ▸ rfl)

instance : Repr Ident := ⟨fun i p => reprPrec i.text p⟩

@[ext] theorem ext {a b : Ident} (h : a.text = b.text) : a = b := by
  cases a; cases b; simp_all

/-- The first thing that keeps a text from being a name. -/
def fault? (s : String) : Option ValidationError :=
  match s.toList with
  | [] => some .emptyIdent
  | c :: rest =>
    if isIdentStart c then (rest.find? fun c => !isIdentRest c).map (.identChar s)
    else some (.identStart s c)

/-- A text is a name exactly if nothing keeps it from being one. -/
theorem fault?_eq_none_iff (s : String) : fault? s = none ↔ isIdent s.toList = true := by
  unfold fault? isIdent
  cases s.toList with
  | nil => simp
  | cons c rest => by_cases h : isIdentStart c = true <;> simp [h]

/-- The name that a text is, or what keeps it from being one. -/
def parse (s : String) : Except ValidationError Ident :=
  match h : fault? s with
  | none => .ok ⟨s, (fault?_eq_none_iff s).1 h⟩
  | some e => .error e

theorem parse_text (i : Ident) : parse i.text = .ok i := by
  have h := (fault?_eq_none_iff i.text).2 i.valid
  unfold parse
  split
  · rfl
  · simp_all

/-- Only a name is read, and it is read as it is written. -/
theorem parse_eq_ok_iff {s : String} {i : Ident} : parse s = .ok i ↔ i.text = s := by
  constructor
  · intro h
    unfold parse at h
    split at h
    · cases h; rfl
    · cases h
  · rintro rfl
    exact parse_text i

end Ident

/-- A tenant's schema: a name that is not empty and has no NUL in it. -/
structure Schema where
  name : String
  ne_empty : name.toList ≠ []
  no_nul : '\x00' ∉ name.toList

namespace Schema

/-- The schema of a name. -/
def ofName (name : String) : Except ValidationError Schema :=
  if h : name.toList = [] then .error .emptySchema
  else if h' : '\x00' ∈ name.toList then .error .nulInSchema
  else .ok ⟨name, h, h'⟩

/-- The name as it stands in a statement. -/
def sql (s : Schema) : String :=
  Quoted.identifier s.name

end Schema

end TenantSql
