import TenantSql.Filter
import TenantSql.Log
import TenantSql.Params
/-!
# TenantSql.Statement.Select

Selecting the rows that parameters ask for. Parameters of declared columns become
conditions in their order; the reserved keys become an order, a limit and an
offset, in that order; all others are ignored.
-/

namespace TenantSql

namespace Statement

/-- Appends conditions, the first one after `lead` and the others after `AND`. -/
def pushConditions (lead : String) (st : Statement) : List Filter → Statement
  | [] => st
  | f :: rest => pushConditions " AND " (f.appendTo (st.push lead)) rest

end Statement

namespace Profile

/-- The conditions that parameters put on declared columns. -/
def filters (p : Profile) (params : Params) : List Filter :=
  params.pairs.filterMap fun (key, raw) =>
    (p.column? key).map fun c => .parse c.name.text c.kind raw

end Profile

namespace Statement

/-- Appends the conditions that parameters put on a table. -/
def pushFilters (st : Statement) (profile : Profile) (params : Params) : Statement :=
  st.pushConditions " WHERE " (profile.filters params)

/-- Appends an order. -/
def pushOrder (st : Statement) (column : Ident) (ascending : Bool) : Statement :=
  ((st.push " ORDER BY ").pushIdent column).push (if ascending then " ASC" else " DESC")

/-- Appends a keyword and the number that comes with it, if there is one. -/
def pushNumber (st : Statement) (keyword : String) : Option String → Statement
  | some raw => (st.push keyword).bindVerbatim (.parseNumeric raw) raw
  | none => st

/-- Appends a limit and an offset. -/
def pushPaging (st : Statement) (reserved : Reserved) : Statement :=
  (st.pushNumber " LIMIT " reserved.limit).pushNumber " OFFSET " reserved.offset

/-- Appends what the reserved keys ask for. The column of an order is checked before anything is
appended. -/
def pushReserved (st : Statement) (reserved : Reserved) : Except ValidationError Statement :=
  if reserved.hasOrdering then
    match Ident.parse reserved.orderColumn with
    | .ok column => .ok ((st.pushOrder column reserved.isAscending).pushPaging reserved)
    | .error e => .error e
  else .ok (st.pushPaging reserved)

/-- Appends what the reserved keys ask for in place, one clause after the other. An error leaves the
statement with all that was appended before it. -/
def appendReserved (reserved : Reserved) : EStateM ValidationError Statement Unit := do
  if reserved.hasOrdering then
    match Ident.parse reserved.orderColumn with
    | .ok column => modify fun st => st.pushOrder column reserved.isAscending
    | .error e => throw e
  modify fun st => st.pushNumber " LIMIT " reserved.limit
  modify fun st => st.pushNumber " OFFSET " reserved.offset

end Statement

namespace Profile

/-- The statement that selects what parameters ask for. -/
def selectStatement (p : Profile) (schema : Schema) (params : Params) :
    Except ValidationError Statement :=
  let st := ((Statement.new "SELECT * FROM ").pushTable schema p.table).pushFilters p params
  (st.pushReserved params.reserved).map fun st => st.push ";"

/-- Selects what parameters ask for. -/
def select (p : Profile) (schema : Schema) (params : Params) : Logged Statement :=
  match p.selectStatement schema params with
  | .ok st => .built (.select st.paramCount) p.table st
  | .error e => .refused e

end Profile

end TenantSql
