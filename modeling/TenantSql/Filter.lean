import TenantSql.Profile.Basic
import TenantSql.Statement.Basic
/-!
# TenantSql.Filter

A condition on one column, read from the raw text of a parameter. The value of a
numeric column may begin with two letters for a comparison:

| letters | comparison |
|---------|------------|
| `lt`    | `<`        |
| `le`    | `<=`       |
| `gt`    | `>`        |
| `ge`    | `>=`       |
| `ne`    | `!=`       |
| none    | `=`        |

Columns of the other kinds compare with `=`.
-/

namespace TenantSql

/-- A comparison. -/
inductive CompareOp where
  | eq
  | ne
  | lt
  | le
  | gt
  | ge
deriving DecidableEq, Repr

namespace CompareOp

/-- The operator of a comparison. -/
def sql : CompareOp → String
  | eq => "="
  | ne => "!="
  | lt => "<"
  | le => "<="
  | gt => ">"
  | ge => ">="

/-- The letters that ask for a comparison. -/
def letters : CompareOp → List Char
  | eq => []
  | ne => ['n', 'e']
  | lt => ['l', 't']
  | le => ['l', 'e']
  | gt => ['g', 't']
  | ge => ['g', 'e']

/-- The comparison that characters begin with, and what follows its letters. -/
def readChars : List Char → CompareOp × List Char
  | 'l' :: 't' :: rest => (lt, rest)
  | 'l' :: 'e' :: rest => (le, rest)
  | 'g' :: 't' :: rest => (gt, rest)
  | 'g' :: 'e' :: rest => (ge, rest)
  | 'n' :: 'e' :: rest => (ne, rest)
  | cs => (eq, cs)

/-- The comparison that a text begins with, and what follows its letters. -/
def read (raw : String) : CompareOp × String :=
  ((readChars raw.toList).1, String.ofList (readChars raw.toList).2)

end CompareOp

/-- A condition on a column. -/
structure Filter where
  column : String
  kind : ColumnKind
  op : CompareOp
  comparand : String
deriving DecidableEq, Repr

namespace Filter

/-- The condition that the raw text of a parameter puts on a column. -/
def parse (column : String) (kind : ColumnKind) (raw : String) : Filter :=
  match kind with
  | .numeric => ⟨column, kind, (CompareOp.read raw).1, (CompareOp.read raw).2⟩
  | .string | .generic => ⟨column, kind, .eq, raw⟩

/-- The value that is compared with. -/
def value (f : Filter) : Value :=
  match f.kind with
  | .string => .text f.comparand
  | .numeric | .generic => .parseNumeric f.comparand

/-- The comparand in the literal form: quoted for strings, as it came for the others. -/
def literal (f : Filter) : String :=
  match f.kind with
  | .string => Quoted.literal f.comparand
  | .numeric | .generic => f.comparand

/-- The comparison in the literal form, without the column. -/
def fragment (f : Filter) : String :=
  " " ++ f.op.sql ++ " " ++ f.literal

/-- The type that a fractional comparand is cast to. Without a cast the placeholder takes the type
of its column, which may hold no fractions. -/
def fractionType : String := "numeric"

/-- The comparand as it is bound. -/
def bound (f : Filter) : Bound :=
  ⟨f.value, f.literal, if f.value.isFractional then some fractionType else none⟩

/-- Appends the condition to a statement. -/
def appendTo (f : Filter) (st : Statement) : Statement :=
  ((((st.push f.column).push " ").push f.op.sql).push " ").pushBound f.bound

end Filter

end TenantSql
