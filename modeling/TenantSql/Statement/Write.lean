import TenantSql.Log
import TenantSql.Profile.Basic
import TenantSql.Row
import TenantSql.Statement.Basic
/-!
# TenantSql.Statement.Write

The statements that change a table.

A batch of rows is inserted with the table's rule for rows that are there already.
Every row gives one tuple with a value for each declared column, in the order of
declaration; a column that a row lacks is null. Rows are deleted by a list of keys, or
before a point in time.
-/

namespace TenantSql

/-! ### Insertion -/

namespace Statement

/-- Appends the names of columns from position `i` on. Between two names there is a comma, and a
new line if the second name's position is a break. -/
def pushColumnNames (breaks : List Nat) (st : Statement) (i : Nat) : List Column → Statement
  | [] => st
  | c :: rest =>
    -- The first name follows the opening bracket.
    let st :=
      if i = 0 then st
      else if i ∈ breaks then (st.push ",").push Layout.nested
      else st.push ", "
    pushColumnNames breaks (st.pushIdent c.name) (i + 1) rest

/-- Appends values, each on a line of its own, the first one after `lead`. -/
def pushValues (lead : String) (st : Statement) : List Value → Statement
  | [] => st
  | v :: rest => pushValues "," (((st.push lead).push Layout.nested).bind v) rest

/-- Appends tuples of values, the first one after `lead`. -/
def pushTuples (lead : String) (st : Statement) : List (List Value) → Statement
  | [] => st
  | vs :: rest => pushTuples ", " ((((st.push lead).push "(").pushValues "" vs).push ")") rest

/-- Appends assignments of what was to be inserted, the first one after `lead`. -/
def pushAssignments (lead : String) (st : Statement) : List Ident → Statement
  | [] => st
  | c :: rest =>
    pushAssignments ","
      (((((st.push lead).push Layout.nested).pushIdent c).push " = EXCLUDED.").pushIdent c) rest

/-- Appends the rule for rows that are there already. -/
def pushOnConflict (st : Statement) : OnConflict → Statement
  | .doNothing returning => (st.push "DO NOTHING RETURNING ").pushIdent returning
  | .doUpdate columns => (st.push "DO UPDATE SET").pushAssignments "" columns

end Statement

namespace Profile

/-- The values of a row for the declared columns. -/
def tuple (p : Profile) (row : Row) : List Value :=
  p.columns.map fun c => (row.get? c.name.text).getD .null

/-- The statement that inserts rows. -/
def insertStatement (p : Profile) (schema : Schema) (rows : List Row) : Statement :=
  let st := (Statement.new Layout.line).push "INSERT INTO "
  let st := ((st.pushTable schema p.table).push " (").push Layout.nested
  let st := st.pushColumnNames p.breaks 0 p.columns
  let st := ((st.push ")").push Layout.line).push "VALUES "
  let st := st.pushTuples "" (rows.map p.tuple)
  let st := (st.push Layout.line).push "ON CONFLICT ON CONSTRAINT "
  let st := (st.pushIdent p.uniqueConstraint).push Layout.line
  (st.pushOnConflict p.onConflict).push ";"

/-- Inserts rows; there has to be one. -/
def insert (p : Profile) (schema : Schema) (rows : List Row) : Logged Statement :=
  if rows.isEmpty then .refused (.noRows p.table.text)
  else .built (.insert rows.length) p.table (p.insertStatement schema rows)

/-! ### Deletion -/

/-- A statement that deletes from the table, up to the condition. -/
def deleteHead (p : Profile) (schema : Schema) : Statement :=
  let st := (Statement.new Layout.line).push "DELETE FROM "
  ((st.pushTable schema p.table).push Layout.line).push "WHERE "

/-- The statement that deletes the rows with one of the keys. -/
def deleteByKeysStatement (p : Profile) (schema : Schema) (key : Ident) (keys : List Value) :
    Statement :=
  ((((p.deleteHead schema).pushIdent key).push " IN (").bindList keys).push ");"

/-- Deletes the rows with one of the keys. -/
def deleteByKeys (p : Profile) (schema : Schema) (keys : List Value) : Logged Statement :=
  match p.keyColumn with
  | none => .refused (.noKeyColumn p.table.text)
  | some key =>
    let st := p.deleteByKeysStatement schema key keys
    .built (.deleteByKeys st.paramCount) p.table st

/-- The statement that deletes the rows before a point in time. -/
def deleteBeforeStatement (p : Profile) (schema : Schema) (time : Ident) (threshold : Value) :
    Statement :=
  ((((p.deleteHead schema).pushIdent time).push " < ").bind threshold).push ";"

/-- Deletes the rows before a point in time. -/
def deleteBefore (p : Profile) (schema : Schema) (threshold : Value) : Logged Statement :=
  match p.timeColumn with
  | none => .refused (.noTimeColumn p.table.text)
  | some time =>
    .built .deleteBefore p.table (p.deleteBeforeStatement schema time threshold)

end Profile

end TenantSql
