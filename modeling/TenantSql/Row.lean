import TenantSql.Json.Document
import TenantSql.Keyed
import TenantSql.Value.Basic
/-!
# TenantSql.Row

A row to insert: values under column names. A row may carry names that its table
does not declare, and lack names that it does.

Rows of the known tables have their fields typed, and two JSON forms: an object
with each field once, whatever else it holds, or an array of exactly the fields.
-/

namespace TenantSql

/-- Values under column names. -/
structure Row where
  values : Keyed Value

namespace Row

/-- The row without values. -/
def empty : Row := ⟨∅⟩

/-- Gives a column a value. -/
def set (r : Row) (column : String) (value : Value) : Row :=
  ⟨r.values.insert column value⟩

/-- The value of a column. -/
def get? (r : Row) (column : String) : Option Value :=
  r.values.get? column

@[simp] theorem get?_set (r : Row) (column key : String) (value : Value) :
    (r.set column value).get? key = if key = column then some value else r.get? key :=
  Keyed.get?_insert r.values column key value

/-- Number of columns with a value. -/
def size (r : Row) : Nat := r.values.size

/-- The row of a list of pairs; the last value of a column stays. -/
def ofList (pairs : List (String × Value)) : Row :=
  ⟨Keyed.ofList pairs⟩

/-- The scalars of members, or the first member that is none. -/
def scalars : List (String × Json) → Except ValidationError (List (String × Value))
  | [] => .ok []
  | (column, json) :: rest =>
    match Value.ofJson json with
    | .error cause => .error (.inColumn column cause)
    | .ok value =>
      match scalars rest with
      | .error e => .error e
      | .ok values => .ok ((column, value) :: values)

/-- The row that an object of scalars gives. Members are visited in the order of their keys, each
with the last value of its key. -/
def ofJson : Json → Except ValidationError Row
  | .object members =>
    match scalars (Keyed.ofList members).entries with
    | .ok values => .ok (ofList values)
    | .error e => .error e
  | other => .error (.notAnObject other)

end Row

/-! ### Rows of the known tables -/

/-- A row of the transactions of a pool. -/
structure TransactionRow where
  timestamp : Int64
  round : String
  kind : String

/-- A row of the state of a network. -/
structure NetworkRow where
  timestamp : Int64
  difficulty : Binary64
  hashrate : Binary64
  height : Int64
  kind : String

namespace Json

/-- The values of named fields: of an object that has each of them exactly once, or of an array of
that many items. -/
def fields? (names : List String) : Json → Option (List Json)
  | .object members =>
    names.mapM fun name =>
      match members.filter fun m => m.1 == name with
      | [member] => some member.2
      | _ => none
  | .array items => if items.length = names.length then some items else none
  | _ => none

/-- A 64-bit integer. -/
def integer? : Json → Option Int64
  | .number n => n.toInt64?
  | _ => none

/-- A number, as the nearest finite double. -/
def real? : Json → Option Binary64
  | .number n => if n.toBinary64.isFinite then some n.toBinary64 else none
  | _ => none

/-- A text. -/
def text? : Json → Option String
  | .string s => some s
  | _ => none

end Json

namespace TransactionRow

/-- The fields in the order of their array form. -/
def fieldNames : List String := ["timestamp", "round", "type"]

/-- The row that a document gives. -/
def ofJson? (json : Json) : Option TransactionRow := do
  let [timestamp, round, kind] ← json.fields? fieldNames | none
  return ⟨← timestamp.integer?, ← round.text?, ← kind.text?⟩

/-- The row with its fields under their columns. -/
def toRow (r : TransactionRow) : Row :=
  ((Row.empty.set "timestamp" (.int r.timestamp)).set "round" (.text r.round)).set
    "type" (.text r.kind)

end TransactionRow

namespace NetworkRow

/-- The fields in the order of their array form. -/
def fieldNames : List String := ["timestamp", "difficulty", "hashrate", "height", "type"]

/-- The row that a document gives. -/
def ofJson? (json : Json) : Option NetworkRow := do
  let [timestamp, difficulty, hashrate, height, kind] ← json.fields? fieldNames | none
  return ⟨← timestamp.integer?, ← difficulty.real?, ← hashrate.real?, ← height.integer?,
    ← kind.text?⟩

/-- The row with its fields under their columns. -/
def toRow (r : NetworkRow) : Row :=
  ((((Row.empty.set "timestamp" (.int r.timestamp)).set
    "difficulty" (.float r.difficulty)).set
    "hashrate" (.float r.hashrate)).set
    "height" (.int r.height)).set
    "type" (.text r.kind)

end NetworkRow

end TenantSql
