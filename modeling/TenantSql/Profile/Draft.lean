import TenantSql.Profile.Basic
/-!
# TenantSql.Profile.Draft

A table profile drafted call by call and checked as a whole. Calls only record:
columns add up, and of every other call the last one counts. `Draft.build` checks
the record in a fixed order and names the first fault.
-/

namespace TenantSql

/-- A conflict rule as it is asked for. -/
inductive DraftConflict where
  | doNothing (returning : String)
  | doUpdate (columns : List String)
deriving DecidableEq, Repr

/-- One statement about a table. -/
inductive DraftCall where
  | column (name : String) (kind : ColumnKind)
  | breaks (positions : List Nat)
  | uniqueConstraint (name : String)
  | onConflict (rule : DraftConflict)
  | keyColumn (name : String)
  | timeColumn (name : String)
deriving DecidableEq, Repr

/-- What has been said about a table so far. -/
structure Draft where
  table : String
  columns : List (String × ColumnKind)
  breaks : List Nat
  uniqueConstraint : Option String
  onConflict : Option DraftConflict
  keyColumn : Option String
  timeColumn : Option String
deriving DecidableEq, Repr

namespace Draft

/-- A table of which nothing has been said. -/
def of (table : String) : Draft :=
  ⟨table, [], [], none, none, none, none⟩

/-- Records a call. -/
def record (d : Draft) : DraftCall → Draft
  | .column name kind => { d with columns := d.columns ++ [(name, kind)] }
  | .breaks positions => { d with breaks := positions }
  | .uniqueConstraint name => { d with uniqueConstraint := some name }
  | .onConflict rule => { d with onConflict := some rule }
  | .keyColumn name => { d with keyColumn := some name }
  | .timeColumn name => { d with timeColumn := some name }

/-- The draft of a table after some calls. -/
def ofCalls (table : String) (calls : List DraftCall) : Draft :=
  calls.foldl record (of table)

/-! ### Checks -/

/-- Puts a number into an ascending list that does not have it yet. -/
def insertAscending (n : Nat) : List Nat → List Nat
  | [] => [n]
  | m :: rest =>
    if n < m then n :: m :: rest
    else if n = m then m :: rest
    else m :: insertAscending n rest

/-- The numbers of a list in ascending order, each once. -/
def ascending (ns : List Nat) : List Nat :=
  ns.foldr insertAscending []

/-- The columns after `declared`, if every name is one and none comes twice. -/
def checkColumns (table : Ident) (declared : List Column) :
    List (String × ColumnKind) → Except ValidationError (List Column)
  | [] => .ok declared
  | (text, kind) :: rest =>
    match Ident.parse text with
    | .error e => .error e
    | .ok name =>
      if declared.any fun c => c.name == name then
        .error (.duplicateColumn name.text table.text)
      else
        checkColumns table (declared ++ [⟨name, kind⟩]) rest

/-- Positions in ascending order, if each one lies between two columns. -/
def checkBreaks (table : Ident) (columns : List Column) (positions : List Nat) :
    Except ValidationError (List Nat) :=
  let sorted := ascending positions
  match sorted.find? fun n => n == 0 || columns.length ≤ n with
  | some n => .error (.breakOutside n table.text)
  | none => .ok sorted

/-- The name of a declared column. -/
def checkDeclared (table : Ident) (columns : List Column) (text : String) :
    Except ValidationError Ident :=
  match Ident.parse text with
  | .error e => .error e
  | .ok name =>
    if columns.any fun c => c.name == name then .ok name
    else .error (.undeclaredColumn name.text table.text)

/-- The names of declared columns. -/
def checkAllDeclared (table : Ident) (columns : List Column) :
    List String → Except ValidationError (List Ident)
  | [] => .ok []
  | text :: rest =>
    match checkDeclared table columns text with
    | .error e => .error e
    | .ok name =>
      match checkAllDeclared table columns rest with
      | .error e => .error e
      | .ok names => .ok (name :: names)

/-- A conflict rule over declared columns. -/
def checkConflict (table : Ident) (columns : List Column) :
    Option DraftConflict → Except ValidationError OnConflict
  | none => .error (.noConflictAction table.text)
  | some (.doNothing returning) => do
    return .doNothing (← checkDeclared table columns returning)
  | some (.doUpdate []) => .error (.updatesNothing table.text)
  | some (.doUpdate names) => do
    return .doUpdate (← checkAllDeclared table columns names)

/-- A declared column, if one is asked for. -/
def checkOptional (table : Ident) (columns : List Column) :
    Option String → Except ValidationError (Option Ident)
  | none => .ok none
  | some text => do
    return some (← checkDeclared table columns text)

/-- The name of the unique constraint. -/
def checkConstraint (table : Ident) : Option String → Except ValidationError Ident
  | none => .error (.noUniqueConstraint table.text)
  | some text => Ident.parse text

/-- The profile that a draft describes, or its first fault. -/
def build (d : Draft) : Except ValidationError Profile := do
  -- The order of the checks decides which fault is named.
  let table ← Ident.parse d.table
  if d.columns.isEmpty then
    throw (.noColumns table.text)
  let columns ← checkColumns table [] d.columns
  let breaks ← checkBreaks table columns d.breaks
  let uniqueConstraint ← checkConstraint table d.uniqueConstraint
  let onConflict ← checkConflict table columns d.onConflict
  let keyColumn ← checkOptional table columns d.keyColumn
  let timeColumn ← checkOptional table columns d.timeColumn
  return { table, columns, breaks, uniqueConstraint, onConflict, keyColumn, timeColumn }

end Draft

end TenantSql
