import TenantSql.Toml.Basic
/-!
# TenantSql.Toml.Tree

Tables while a document is read. What may still be added to a table depends on
how it came about:

* by a header of its own: nothing but through that header,
* on the way to a deeper header: it may get a header later, and dotted keys may
  lead through it but not add to it,
* by a dotted key: more dotted keys of the same section may add to it.

Values are complete, tables in braces included.
-/

namespace TenantSql.Toml

/-- How a table came about. -/
inductive Origin where
  | header
  | passed
  | dotted
deriving DecidableEq, Repr

/-- A node of the tree: a complete value, a table, or the tables of an array, last first. -/
inductive Node where
  | value (v : Toml)
  | table (origin : Origin) (entries : List (String × Node))
  | tables (items : List (List (String × Node)))

/-- The entries of a table. -/
abbrev Entries := List (String × Node)

namespace Entries

/-- Gives a key a node: in place if the key is there, else at the end. -/
def set (key : String) (node : Node) : Entries → Entries
  | [] => [(key, node)]
  | e :: rest => if e.1 = key then (key, node) :: rest else e :: set key node rest

/-- Changes the table that a path of headers leads to, making the tables on the way. -/
def update? (change : Entries → Option Entries) : List String → Entries → Option Entries
  | [], es => change es
  | key :: path, es =>
    match es.lookup key with
    | none => (update? change path []).map fun inner => es.set key (.table .passed inner)
    | some (.table origin inner) =>
      (update? change path inner).map fun inner => es.set key (.table origin inner)
    -- A path leads through an array into its last table.
    | some (.tables (last :: before)) =>
      (update? change path last).map fun last => es.set key (.tables (last :: before))
    | some _ => none

/-- Gives a dotted key a value. Only tables that dotted keys made get the value; on the way to them
the key may pass any table without a header of its own. -/
def assign? (v : Toml) : List String → Entries → Option Entries
  | [], _ => none
  | [key], es =>
    match es.lookup key with
    | none => some (es.set key (.value v))
    | some _ => none
  | key :: path, es =>
    let isLast := path.length == 1
    match es.lookup key with
    | none => (assign? v path []).map fun inner => es.set key (.table .dotted inner)
    | some (.table .dotted inner) =>
      (assign? v path inner).map fun inner => es.set key (.table .dotted inner)
    | some (.table .passed inner) =>
      if isLast then none
      else (assign? v path inner).map fun inner => es.set key (.table .passed inner)
    | some (.tables (last :: before)) =>
      if isLast then none
      else (assign? v path last).map fun last => es.set key (.tables (last :: before))
    | some _ => none

/-- Opens a table by its header. -/
def open? (key : String) (es : Entries) : Option Entries :=
  match es.lookup key with
  | none => some (es.set key (.table .header []))
  | some (.table .passed inner) => some (es.set key (.table .header inner))
  | some _ => none

/-- Opens one more table of an array by its header. -/
def openItem? (key : String) (es : Entries) : Option Entries :=
  match es.lookup key with
  | none => some (es.set key (.tables [[]]))
  | some (.tables items) => some (es.set key (.tables ([] :: items)))
  | some _ => none

/-- Opens the table that a header names, or one more table of the array that it names. -/
def openPath? (item : Bool) (path : List String) (es : Entries) : Option Entries :=
  match path.getLast? with
  | some key => es.update? (if item then openItem? key else open? key) path.dropLast
  | none => none

end Entries

mutual

/-- The value of a node. -/
def Node.toToml : Node → Toml
  | .value v => v
  | .table _ entries => .table (entriesToToml entries)
  | .tables items => .array (itemsToToml items).reverse

/-- The values of entries. -/
def entriesToToml : List (String × Node) → List (String × Toml)
  | [] => []
  | e :: rest => (e.1, e.2.toToml) :: entriesToToml rest

/-- The tables of an array. -/
def itemsToToml : List (List (String × Node)) → List Toml
  | [] => []
  | item :: rest => .table (entriesToToml item) :: itemsToToml rest

end

end TenantSql.Toml
