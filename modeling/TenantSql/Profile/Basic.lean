import TenantSql.Ident
/-!
# TenantSql.Profile.Basic

The description of one table: which columns can be filtered and how each one
compares, and what its upserts and deletes look like. Columns stand in insertion
order.
-/

namespace TenantSql

/-- How a filter on a column reads its value. -/
inductive ColumnKind where
  | numeric
  | string
  | generic
deriving DecidableEq, Repr

/-- A column of a table. -/
structure Column where
  name : Ident
  kind : ColumnKind
deriving DecidableEq, Repr

/-- What an insertion does with a row that is there already. -/
inductive OnConflict where
  | doNothing (returning : Ident)
  | doUpdate (columns : List Ident)
deriving DecidableEq, Repr

/-- The description of a table. -/
structure Profile where
  table : Ident
  columns : List Column
  /-- Positions of columns that begin a new line of the column list. -/
  breaks : List Nat
  uniqueConstraint : Ident
  onConflict : OnConflict
  keyColumn : Option Ident
  timeColumn : Option Ident
deriving DecidableEq, Repr

namespace Profile

/-- The column of a name. -/
def column? (p : Profile) (name : String) : Option Column :=
  p.columns.find? fun c => c.name.text == name

/-- The kind of the column of a name. -/
def kindOf? (p : Profile) (name : String) : Option ColumnKind :=
  (p.column? name).map Column.kind

/-- The names of all columns. -/
def parameters (p : Profile) : List String :=
  p.columns.map fun c => c.name.text

/-- The names of the columns of a kind. -/
def namesOf (p : Profile) (kind : ColumnKind) : List String :=
  (p.columns.filter fun c => c.kind == kind).map fun c => c.name.text

/-- The names of the numeric columns. -/
def numbers (p : Profile) : List String := p.namesOf .numeric

/-- The names of the columns of text. -/
def strings (p : Profile) : List String := p.namesOf .string

/-- The transactions of a pool, one row to a round. -/
def currentTransactions : Profile where
  table := ⟨"current_transactions", by decide⟩
  columns := [
    ⟨⟨"timestamp", by decide⟩, .numeric⟩,
    ⟨⟨"round", by decide⟩, .string⟩,
    ⟨⟨"type", by decide⟩, .string⟩]
  breaks := []
  uniqueConstraint := ⟨"current_transactions_unique", by decide⟩
  onConflict := .doNothing ⟨"round", by decide⟩
  keyColumn := some ⟨"round", by decide⟩
  timeColumn := some ⟨"timestamp", by decide⟩

/-- The state of the network a pool works on. -/
def currentNetwork : Profile where
  table := ⟨"current_network", by decide⟩
  columns := [
    ⟨⟨"timestamp", by decide⟩, .numeric⟩,
    ⟨⟨"difficulty", by decide⟩, .numeric⟩,
    ⟨⟨"hashrate", by decide⟩, .numeric⟩,
    ⟨⟨"height", by decide⟩, .numeric⟩,
    ⟨⟨"type", by decide⟩, .string⟩]
  breaks := [2]
  uniqueConstraint := ⟨"current_network_unique", by decide⟩
  onConflict := .doUpdate [
    ⟨"timestamp", by decide⟩,
    ⟨"difficulty", by decide⟩,
    ⟨"hashrate", by decide⟩,
    ⟨"height", by decide⟩]
  keyColumn := none
  timeColumn := some ⟨"timestamp", by decide⟩

end Profile

end TenantSql
