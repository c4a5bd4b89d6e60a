import TenantSql.Toml.Lexical
import TenantSql.Toml.Scalar
import TenantSql.Toml.Tree
/-!
# TenantSql.Toml.Document

TOML text read into a table. Values nest up to a limit, so reading a value recurs
on how deep it may still go; a list of items recurs on the text that is left.
-/

namespace TenantSql.Toml

/-- Items up to a closing character, with commas between; blanks, comments and line ends may stand
around items, and a comma after the last. -/
def items? {α : Type} (item : List Char → Option (α × List Char)) (close : Char)
    (cs : List Char) : Option (List α × List Char) :=
  match skipLines cs with
  | [] => none
  | c :: rest =>
    if c = close then some ([], rest)
    else match item (c :: rest) with
      | none => none
      | some (a, after) =>
        match skipLines after with
        | [] => none
        | d :: rest =>
          if d = close then some ([a], rest)
          else if d = ',' then
            if _h : rest.length < cs.length then
              (items? item close rest).map fun (as, rest) => (a :: as, rest)
            else none
          else none
termination_by cs.length

/-- A key that does not have too many parts. -/
def path? (cs : List Char) : Option (List String × List Char) :=
  (key? cs).filter fun (path, _) => path.length ≤ maxDepth

/-- A key and its value, with an equals sign between; `skip` skips what may stand around that. -/
def keyValue? (skip : List Char → List Char) (value : List Char → Option (Toml × List Char))
    (cs : List Char) : Option ((List String × Toml) × List Char) :=
  match path? cs with
  | none => none
  | some (path, after) =>
    match skip after with
    | '=' :: rest => (value (skip rest)).map fun (v, rest) => ((path, v), rest)
    | _ => none

/-- The table of assignments in braces. -/
def inlineTable? (assignments : List (List String × Toml)) : Option Toml :=
  (assignments.foldlM (fun es a => Entries.assign? a.2 a.1 es) []).map
    fun es => .table (entriesToToml es)

/-- A value, in which arrays and tables nest at most `depth` deep. -/
def value? : Nat → List Char → Option (Toml × List Char)
  | 0, cs =>
    match string? cs with
    | some (text, rest) => some (.string (String.ofList text), rest)
    | none => scalar? cs
  | depth + 1, cs =>
    match cs with
    | '[' :: rest =>
      (items? (value? depth) ']' rest).map fun (vs, rest) => (.array vs, rest)
    | '\x7b' :: rest =>
      match items? (keyValue? skipLines (value? depth)) '\x7d' rest with
      | some (assignments, rest) => (inlineTable? assignments).map fun t => (t, rest)
      | none => none
    | cs => value? 0 cs

/-- A document while it is read: its tables, and the path of the open section. -/
structure Reader where
  root : Entries
  path : List String

/-- The path in a header after its opening brackets, and what follows its closing ones. -/
def headerPath? (closing : List Char) (cs : List Char) : Option (List String × List Char) :=
  match path? cs with
  | some (path, rest) =>
    if closing.isPrefixOf rest then some (path, rest.drop closing.length) else none
  | none => none

/-- Opens the section of a header. -/
def Reader.openSection? (r : Reader) (item : Bool) (path : List String) : Option Reader :=
  (r.root.openPath? item path).map fun root => ⟨root, path⟩

/-- One header or assignment at the beginning of a line, and what follows. -/
def Reader.line? (r : Reader) (cs : List Char) : Option (Reader × List Char) :=
  match cs with
  | '[' :: '[' :: rest => do
    let (path, rest) ← headerPath? [']', ']'] rest
    return (← r.openSection? true path, rest)
  | '[' :: rest => do
    let (path, rest) ← headerPath? [']'] rest
    return (← r.openSection? false path, rest)
  | cs => do
    let ((path, v), rest) ← keyValue? skipBlanks (value? maxDepth) cs
    let root ← r.root.update? (Entries.assign? v path) r.path
    return ({ r with root }, rest)

/-- The lines of a document up to the end of the text. -/
def Reader.lines? (r : Reader) (cs : List Char) : Option Reader :=
  match skipLines cs with
  | [] => some r
  | c :: rest =>
    match r.line? (c :: rest) with
    | none => none
    | some (r, after) =>
      let after := skipBlanks after
      let after := if after.head? = some '#' then skipComment after else after
      match lineEnd? after with
      | none => none
      | some next => if _h : next.length < cs.length then r.lines? next else none
termination_by cs.length

/-- The text without a byte order mark at its beginning. -/
def withoutMark : List Char → List Char
  | '\uFEFF' :: rest => rest
  | cs => cs

/-- The entries that a text writes. -/
def parse? (text : String) : Option (List (String × Toml)) :=
  (Reader.lines? ⟨[], []⟩ (withoutMark text.toList)).map fun r => entriesToToml r.root

end TenantSql.Toml
