import TenantSql.Client.Basic
import TenantSql.Value.Wire
/-!
# TenantSql.Client.Session

A session with a server. A statement is prepared first; the server then declares
the types of its placeholders, the values are bound to them, and the statement is
executed. Each of these can fail, in this order, and a connection that was
dropped stays closed.

What the server does is given as a script of turns, one to a request.
-/

namespace TenantSql

/-- The two times at which a server replies. -/
inductive Stage where
  | prepare
  | execute
deriving DecidableEq, Repr

/-- An error that a server reports. -/
structure ServerError where
  code : String
  message : String
  constraint : Option String
deriving DecidableEq, Repr

/-- How a server replies to a statement. -/
inductive ServerReply (ρ : Type) where
  | rows (rows : List ρ)
  | affected (count : Nat)
  | failure (stage : Stage) (error : ServerError)
  | close (stage : Stage)
deriving DecidableEq, Repr

/-- What a server does with one statement: the types that it declares for the placeholders, and
its reply. -/
structure Turn (ρ : Type) where
  types : List PgType
  reply : ServerReply ρ
deriving DecidableEq, Repr

/-- The error that a server's error counts as: three codes are violations of constraints. -/
def QueryError.ofServer (e : ServerError) : QueryError :=
  match e.code with
  | "23505" => .uniqueViolation (.named e.constraint e.message)
  | "23503" => .foreignKeyViolation (.named e.constraint e.message)
  | "23514" => .checkViolation (.named e.constraint e.message)
  | _ => .query .refused

/-- One request as the server saw it, and the answer. The text is there if it was sent, and so are
the bytes of the values. -/
structure Exchange (ρ : Type) where
  sql : Option String
  params : Option (List (Option (List UInt8)))
  answer : Except QueryError (Answer ρ)

/-- A connection: whether it is open, the turns to come, and the exchanges so far, last first. -/
structure Session (ρ : Type) where
  isOpen : Bool
  script : List (Turn ρ)
  exchanges : List (Exchange ρ)

namespace Session

variable {ρ : Type}

/-- Binds values to types, from position `i` on, or gives the position of the first that cannot
be bound. -/
def bindAll (i : Nat) : List Value → List PgType → Except Nat (List (Option (List UInt8)))
  | v :: vs, t :: ts =>
    match v.bindChecked t with
    | .error _ => .error i
    | .ok bytes =>
      match bindAll (i + 1) vs ts with
      | .error j => .error j
      | .ok rest => .ok (bytes :: rest)
  | _, _ => .ok []

/-- The answer to a request whose statement was executed. What the other kind of request asks for
is left out. -/
def answerTo (kind : RequestKind) (rows : List ρ) (affected : Nat) : Answer ρ :=
  match kind with
  | .fetchAll => .rows rows
  | .execute => .affected affected

/-- The reply to an executed statement, and whether the connection stays open. -/
def executed (kind : RequestKind) : ServerReply ρ → Except QueryError (Answer ρ) × Bool
  | .rows rows => (.ok (answerTo kind rows 0), true)
  | .affected n => (.ok (answerTo kind [] n), true)
  | .failure _ e => (.error (.ofServer e), true)
  | .close _ => (.error (.query .closed), false)

/-- What happens to a request that reaches the server, and whether the connection stays open. -/
def exchange (turn : Turn ρ) (r : Request) : Exchange ρ × Bool :=
  match turn.reply with
  | .failure .prepare e => (⟨some r.sql, none, .error (.ofServer e)⟩, true)
  | .close .prepare => (⟨some r.sql, none, .error (.query .closed)⟩, false)
  | reply =>
    -- The statement is prepared, and the server has declared its types.
    if turn.types.length ≠ r.params.length then
      (⟨some r.sql, none, .error (.query (.parameterCount turn.types.length r.params.length))⟩,
        true)
    else
      match bindAll 0 r.params turn.types with
      | .error i => (⟨some r.sql, none, .error (.query (.parameter i))⟩, true)
      | .ok bytes =>
        let (answer, isOpen) := executed r.kind reply
        (⟨some r.sql, some bytes, answer⟩, isOpen)

/-- One request. SQL with a NUL in it cannot be sent, and a closed connection sends nothing; a
server whose script has ended is gone. -/
def step (s : Session ρ) (r : Request) : Session ρ × Exchange ρ :=
  if '\x00' ∈ r.sql.toList then
    ({ s with script := s.script.drop 1 }, ⟨none, none, .error (.query .unencodable)⟩)
  else
    match s.isOpen, s.script with
    | true, turn :: rest =>
      let (e, isOpen) := exchange turn r
      ({ s with isOpen := isOpen, script := rest }, e)
    | _, script => ({ s with script := script.drop 1 }, ⟨none, none, .error (.query .closed)⟩)

/-- The client that sends requests over a connection. -/
def client : Client (Session ρ) ρ :=
  ⟨fun s r =>
    let (s, e) := s.step r
    ({ s with exchanges := e :: s.exchanges }, e.answer)⟩

end Session

end TenantSql
