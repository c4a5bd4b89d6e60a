import TenantSql.Log
import TenantSql.Statement.Basic
/-!
# TenantSql.Client.Basic

Running statements. A client is anything that answers requests and may remember
something between them: a connection, a transaction, or a client that reports
each request and passes it on.
-/

namespace TenantSql

/-- What a request wants back. -/
inductive RequestKind where
  | fetchAll
  | execute
deriving DecidableEq, Repr

/-- A statement handed over. -/
structure Request where
  kind : RequestKind
  sql : String
  params : List Value

/-- An answer: the rows that came, or how many were affected. -/
inductive Answer (ρ : Type) where
  | rows (rows : List ρ)
  | affected (count : Nat)
deriving DecidableEq, Repr

/-- Something that answers requests, with a memory of type `σ` and rows of type `ρ`. -/
structure Client (σ ρ : Type) where
  call : σ → Request → σ × Except QueryError (Answer ρ)

/-- The request to run a statement. -/
def Statement.request (st : Statement) (kind : RequestKind) : Request :=
  ⟨kind, st.sql, st.params⟩

namespace Client

variable {σ ρ : Type}

/-- Runs a statement. -/
def run (c : Client σ ρ) (s : σ) (kind : RequestKind) (st : Statement) :
    σ × Except QueryError (Answer ρ) :=
  c.call s (st.request kind)

/-- Runs statements one after the other; the answers stand in their order. -/
def runAll (c : Client σ ρ) (s : σ) :
    List (RequestKind × Statement) → σ × List (Except QueryError (Answer ρ))
  | [] => (s, [])
  | (kind, st) :: rest =>
    let (s, answer) := c.run s kind st
    let (s, answers) := c.runAll s rest
    (s, answer :: answers)

/-- The client that answers by the requests so far, the last one included. -/
def ofHistory (answer : List Request → Except QueryError (Answer ρ)) :
    Client (List Request) ρ :=
  ⟨fun history r => (history ++ [r], answer (history ++ [r]))⟩

/-- The client that reports each request before it passes it on. Its memory is the other client's,
with the events so far. -/
def traced (tracer : Tracer) (tag : Option String) (c : Client σ ρ) :
    Client (σ × List Event) ρ :=
  ⟨fun (s, events) r =>
    let event := tracer.event tag r.sql r.params.length
    let (s, answer) := c.call s r
    ((s, events ++ [event]), answer)⟩

end Client

end TenantSql
