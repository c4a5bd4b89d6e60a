import TenantSql.Error
import TenantSql.Ident
/-!
# TenantSql.Log

What the library reports about its work: one event for each statement it builds,
and one for each statement it hands to a traced client. Events carry counts,
names and SQL with placeholders, and no bound value.

A tracer says how the SQL of handed-over statements is reported: at which level, and how
much of it. Long SQL is cut to the longest run of whole characters from its beginning
whose UTF-8 form fits, with an ellipsis behind.
-/

namespace TenantSql

/-! ### Events -/

/-- How urgent an event is. -/
inductive Level where
  | error
  | warn
  | info
  | debug
  | trace
deriving DecidableEq, Repr

/-- The word for a level. -/
def Level.name : Level → String
  | error => "ERROR"
  | warn => "WARN"
  | info => "INFO"
  | debug => "DEBUG"
  | trace => "TRACE"

/-- A kind of statement, with the count that its event reports. -/
inductive Built where
  | select (paramCount : Nat)
  | insert (rows : Nat)
  | deleteByKeys (keys : Nat)
  | deleteBefore
deriving DecidableEq, Repr

/-- Something that happened. -/
inductive Event where
  | built (what : Built) (table : Ident)
  | handedOver (level : Level) (tag : String) (paramCount : Nat) (sql : String)
deriving DecidableEq, Repr

/-- The content of a field of an event. -/
inductive Field where
  | text (value : String)
  | count (value : Nat)
deriving DecidableEq, Repr

/-- What the event of a built statement says, and its counter. -/
def Built.fields : Built → List (String × Field)
  | select n => [("param_count", .count n), ("message", .text "built select")]
  | insert n => [("rows", .count n), ("message", .text "built insert")]
  | deleteByKeys n => [("keys", .count n), ("message", .text "built delete by keys")]
  | deleteBefore => [("message", .text "built delete before threshold")]

namespace Event

/-- What an event is about, for filtering. -/
def target : Event → String
  | built _ _ => "poolsql.build"
  | handedOver _ _ _ _ => "poolsql.sql"

/-- How urgent an event is. -/
def level : Event → Level
  | built _ _ => .trace
  | handedOver level _ _ _ => level

/-- What an event says. -/
def fields : Event → List (String × Field)
  | built what table => ("table", .text table.text) :: what.fields
  | handedOver _ tag n sql => [("tag", .text tag), ("param_count", .count n), ("sql", .text sql)]

end Event

/-- The outcome of some work, with the events on the way. -/
structure Logged (α : Type) where
  events : List Event
  result : Except QueryError α

namespace Logged

variable {α : Type}

/-- A refused input; nothing happened. -/
def refused (cause : ValidationError) : Logged α :=
  ⟨[], .error (.validation cause)⟩

/-- A built statement, with its event. -/
def built (what : Built) (table : Ident) (a : α) : Logged α :=
  ⟨[.built what table], .ok a⟩

end Logged

/-! ### How much SQL is reported -/

/-- The levels that a logger is set to. -/
inductive LogLevel where
  | error
  | warning
  | log
  | debug
deriving DecidableEq, Repr

/-- The level of events that a logger at this level shows. -/
def LogLevel.level : LogLevel → Level
  | error => .error
  | warning => .warn
  | log => .info
  | debug => .debug

/-- How SQL is reported. `none` for the length reports all of it. -/
structure Tracer where
  level : Level
  maxSqlLength : Option Nat
deriving DecidableEq, Repr

namespace Tracer

/-- Reports at the level for debugging, and no more than two hundred bytes. -/
def standard : Tracer := ⟨.debug, some 200⟩

/-- The standard tracer at the level that a logger is set to. -/
def ofLogLevel (level : LogLevel) : Tracer :=
  { standard with level := level.level }

/-- The longest run of characters from the beginning with at most `room` bytes in UTF-8. -/
def takeBytes (room : Nat) : List Char → List Char
  | [] => []
  | c :: rest => if c.utf8Size ≤ room then c :: takeBytes (room - c.utf8Size) rest else []

/-- SQL as it is reported. -/
def truncate (t : Tracer) (sql : String) : String :=
  match t.maxSqlLength with
  | some limit =>
    if limit < sql.utf8ByteSize then String.ofList (takeBytes limit sql.toList) ++ "..." else sql
  | none => sql

/-- The tag that stands for none. -/
def noTag : String := "-"

/-- The event of a statement that is handed over. -/
def event (t : Tracer) (tag : Option String) (sql : String) (paramCount : Nat) : Event :=
  .handedOver t.level (tag.getD noTag) paramCount (t.truncate sql)

end Tracer

end TenantSql
