import TenantSql.Connection.Address
import TenantSql.Settings.Basic
import TenantSql.Text.Utf8
/-!
# TenantSql.Connection.Target

What a driver is told to connect to: lists of hosts, addresses and ports, and one
of each credential. Options that only tune a connection are checked and not kept.

A pool of connections is set up for a target: it has room for connections, makes one only when a
client is asked for, and connects without encryption.
-/

namespace TenantSql

/-- A server, or the directory of its socket. -/
inductive Host where
  | tcp (name : String)
  | unix (path : String)
deriving DecidableEq, Repr

/-- Whether a connection is encrypted. -/
inductive SslMode where
  | disable
  | prefer
  | require
deriving DecidableEq, Repr

/-- The word for a mode. -/
def SslMode.name : SslMode → String
  | disable => "disable"
  | prefer => "prefer"
  | require => "require"

/-- The mode of a word. -/
def SslMode.ofName? (s : String) : Option SslMode :=
  [disable, prefer, require].find? fun mode => mode.name == s

/-- What to connect to. -/
structure Target where
  user : Option String
  password : Option (List UInt8)
  database : Option String
  sslMode : SslMode
  hosts : List Host
  addresses : List IpAddress
  ports : List Nat
deriving DecidableEq, Repr

/-- A host in text: a path begins with a slash. -/
def Host.ofText (s : String) : Host :=
  if s.toList.head? = some '/' then .unix s else .tcp s

namespace Target

/-- Nothing said yet. -/
def empty : Target := ⟨none, none, none, .prefer, [], [], []⟩

/-- The port of a server that names none. -/
def defaultPort : Nat := 5432

/-- Adds a host behind the others. -/
def addHost (t : Target) (h : Host) : Target := { t with hosts := t.hosts ++ [h] }

/-- Adds hosts behind the others. -/
def addHosts (t : Target) (hs : List Host) : Target := { t with hosts := t.hosts ++ hs }

/-- The pieces of a text between commas. -/
def pieces (s : String) : List String :=
  (Pieces.split ',' s.toList).map String.ofList

/-- An unsigned number below a bound, with an optional plus sign. -/
def unsigned? (bound : Nat) (s : String) : Option Nat :=
  (readNat? (match s.toList with | '+' :: rest => rest | cs => cs)).filter (· < bound)

/-- A port; nothing means the default one. -/
def port? (s : String) : Option Nat :=
  if s = "" then some defaultPort else unsigned? UInt16.size s

/-- Sets an option by name, if there is one of that name and the value suits it. -/
def option? (t : Target) (name value : String) : Option Target :=
  match name with
  | "user" => some { t with user := some value }
  | "password" => some { t with password := some (Utf8.encode value) }
  | "dbname" => some { t with database := some value }
  | "options" | "application_name" => some t
  | "sslmode" =>
    (SslMode.ofName? value).map fun mode => { t with sslMode := mode }
  | "host" => some (t.addHosts ((pieces value).map Host.ofText))
  | "hostaddr" =>
    ((pieces value).mapM IpAddress.parse?).map fun as => { t with addresses := t.addresses ++ as }
  | "port" => ((pieces value).mapM port?).map fun ps => { t with ports := t.ports ++ ps }
  | "connect_timeout" | "tcp_user_timeout" | "keepalives_idle" | "keepalives_interval" =>
    ((readInt? value.toList).bind int64?).map fun _ => t
  | "keepalives" => (unsigned? UInt64.size value).map fun _ => t
  | "keepalives_retries" => (unsigned? UInt32.size value).map fun _ => t
  | "sslnegotiation" => if value ∈ ["postgres", "direct"] then some t else none
  | "target_session_attrs" =>
    if value ∈ ["any", "read-write", "read-only"] then some t else none
  | "channel_binding" => if value ∈ ["disable", "prefer", "require"] then some t else none
  | "load_balance_hosts" => if value ∈ ["disable", "random"] then some t else none
  | _ => none

end Target

namespace ClientSettings

/-- What a driver is told for a client's settings. Empty credentials are left out. -/
def target (s : ClientSettings) : Target where
  user := if s.username = "" then none else some s.username
  password := if s.password = "" then none else some (Utf8.encode s.password)
  database := if s.database = "" then none else some s.database
  sslMode := if s.tls then .require else .prefer
  hosts := [Host.ofText s.host]
  addresses := []
  ports := [s.port]

/-- The settings of a client that connects to a target: its first host and port, where it names
any. Only servers are supported, and no sockets. -/
def ofTarget (t : Target) : Except QueryError ClientSettings :=
  let settings (host : String) : ClientSettings :=
    { host
      port := t.ports.head?.getD default.port
      username := t.user.getD ""
      password := (t.password.map Utf8.decodeLossy).getD ""
      database := t.database.getD ""
      tls := t.sslMode == .require }
  match t.hosts with
  | [] => .ok (settings default.host)
  | .tcp name :: _ => .ok (settings name)
  | .unix _ :: _ => .error (.connection .notTcp)

end ClientSettings

/-- A pool: what to connect to, for how many connections there is room, and how many there are. -/
structure Pool where
  target : Target
  maxSize : Nat
  size : Nat
deriving DecidableEq, Repr

/-- Sets up a pool. -/
def Pool.create (s : ClientSettings) (maxSize : Nat) : Except QueryError Pool :=
  if s.tls then .error (.connection .needsTlsConnector)
  else .ok ⟨s.target, maxSize, 0⟩

end TenantSql
