import TenantSql.Json.Compact
/-!
# TenantSql.Error

What can go wrong, as causes. Each cause has its wording in one `message`
function, and `QueryError.message` puts the kind of error in front. Every kind
also takes a text of its own, for callers that report something else.
-/

namespace TenantSql

/-- Input that a check refuses before anything is sent. -/
inductive ValidationError where
  | emptyIdent
  | identStart (text : String) (found : Char)
  | identChar (text : String) (found : Char)
  | emptySchema
  | nulInSchema
  | noColumns (table : String)
  | duplicateColumn (column table : String)
  | breakOutside (position : Nat) (table : String)
  | noUniqueConstraint (table : String)
  | noConflictAction (table : String)
  | updatesNothing (table : String)
  | undeclaredColumn (column table : String)
  | noRows (table : String)
  | noKeyColumn (table : String)
  | noTimeColumn (table : String)
  | notAScalar (found : Json)
  | notAnObject (found : Json)
  | inColumn (column : String) (cause : ValidationError)
  | custom (text : String)

/-- Why a connection string or a pool configuration cannot be used. -/
inductive ConnectionError where
  | invalidString
  | notTcp
  | needsTlsConnector
  | custom (text : String)
deriving DecidableEq, Repr

/-- Why a statement that was built could not be run. -/
inductive RunError where
  | unencodable
  | closed
  | parameterCount (expected bound : Nat)
  | parameter (index : Nat)
  | refused
  | custom (text : String)
deriving DecidableEq, Repr

/-- A constraint that the server found violated, and what it said. -/
inductive Violation where
  | named (constraint : Option String) (message : String)
  | custom (text : String)
deriving DecidableEq, Repr

/-- Why a settings file could not be read. -/
inductive ReadError where
  | notFound
  | isDirectory
  | notUtf8
deriving DecidableEq, Repr

/-- Why there are no settings. -/
inductive SettingsError where
  | unreadable (path : String) (cause : ReadError)
  | invalid
  | custom (text : String)
deriving DecidableEq, Repr

/-- Why a pool gave no client. -/
inductive PoolError where
  | closed
  | custom (text : String)
deriving DecidableEq, Repr

/-- The errors of the library, by kind. -/
inductive QueryError where
  | connection (cause : ConnectionError)
  | query (cause : RunError)
  | uniqueViolation (cause : Violation)
  | foreignKeyViolation (cause : Violation)
  | checkViolation (cause : Violation)
  | validation (cause : ValidationError)
  | config (cause : SettingsError)
  | pool (cause : PoolError)

namespace ValidationError

/-- What stands in front of the wording of a refused input. -/
def lead : String := "Validation error: "

/-- The wording of a refused input. -/
def message : ValidationError → String
  | emptyIdent => "Identifier cannot be empty"
  | identStart text found =>
    "Invalid identifier start character in '" ++ text ++ "': '" ++ String.singleton found ++ "'"
  | identChar text found =>
    "Invalid character in identifier '" ++ text ++ "': '" ++ String.singleton found ++ "'"
  | emptySchema => "Tenant schema cannot be empty"
  | nulInSchema => "Tenant schema cannot contain NUL character"
  | noColumns table => "table " ++ table ++ " declares no columns"
  | duplicateColumn column table => "duplicate column " ++ column ++ " in table " ++ table
  | breakOutside position table =>
    "column break " ++ natText position ++ " is outside the columns of table " ++ table
  | noUniqueConstraint table => "table " ++ table ++ " has no unique constraint"
  | noConflictAction table => "table " ++ table ++ " has no conflict action"
  | updatesNothing table => "table " ++ table ++ " updates no columns on conflict"
  | undeclaredColumn column table =>
    "column " ++ column ++ " is not declared in table " ++ table
  | noRows table => "insert into " ++ table ++ " requires at least one row"
  | noKeyColumn table => "table " ++ table ++ " has no key column"
  | noTimeColumn table => "table " ++ table ++ " has no time column"
  | notAScalar found => "expected a scalar value, got " ++ String.ofList found.compact
  | notAnObject found => "expected a JSON object for a row, got " ++ String.ofList found.compact
  | inColumn column cause => "column " ++ column ++ ": " ++ lead ++ cause.message
  | custom text => text

end ValidationError

/-- The wording of a connection string or pool configuration that cannot be used. -/
def ConnectionError.message : ConnectionError → String
  | invalidString => "invalid connection string"
  | notTcp => "only TCP database hosts are supported"
  | needsTlsConnector =>
    "TLS connections need a TLS connector; build the pool with deadpool_postgres directly"
  | custom text => text

/-- The wording of a statement that could not be run. -/
def RunError.message : RunError → String
  | unencodable => "error encoding message to server"
  | closed => "connection closed"
  | parameterCount expected bound =>
    "expected " ++ natText expected ++ " parameters but got " ++ natText bound
  | parameter index => "error serializing parameter " ++ natText index
  | refused => "db error"
  | custom text => text

/-- A violation names its constraint, as far as the server does. -/
def Violation.message : Violation → String
  | named constraint message => constraint.getD "unknown" ++ ": " ++ message
  | custom text => text

/-- The wording of a file that could not be read, as the operating system words it. -/
def ReadError.message : ReadError → String
  | notFound => "No such file or directory (os error 2)"
  | isDirectory => "Is a directory (os error 21)"
  | notUtf8 => "stream did not contain valid UTF-8"

/-- The wording of settings that cannot be had. -/
def SettingsError.message : SettingsError → String
  | unreadable path cause => "failed to read config file " ++ path ++ ": " ++ cause.message
  | invalid => "failed to parse config"
  | custom text => text

/-- The wording of a pool that gave no client. -/
def PoolError.message : PoolError → String
  | closed => "Pool has been closed"
  | custom text => text

namespace QueryError

/-- The wording of an error, with its kind in front. -/
def message : QueryError → String
  | connection cause => "Connection error: " ++ cause.message
  | query cause => "Query error: " ++ cause.message
  | uniqueViolation cause => "Unique constraint violation: " ++ cause.message
  | foreignKeyViolation cause => "Foreign key violation: " ++ cause.message
  | checkViolation cause => "Check constraint violation: " ++ cause.message
  | validation cause => ValidationError.lead ++ cause.message
  | config cause => "Config error: " ++ cause.message
  | pool cause => "Pool error: " ++ cause.message

/-- Whether input was refused before anything was sent. -/
def isValidation : QueryError → Bool
  | validation _ => true
  | _ => false

/-- Whether a unique constraint was violated. -/
def isUniqueViolation : QueryError → Bool
  | uniqueViolation _ => true
  | _ => false

end QueryError

end TenantSql
