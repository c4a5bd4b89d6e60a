import TenantSql.Settings.Basic
import TenantSql.Text.Utf8
import TenantSql.Toml.Document
/-!
# TenantSql.Settings.OfToml

Settings from TOML. Entries that are no settings are ignored, as long as they can
be read. A section is a table, or an array that holds its settings in the order of
their declaration, of which the last ones may be missing and any items more are
not looked at. A date in place of a section holds no settings. A word is a string,
or the only key of a table whose value is empty.
-/

namespace TenantSql

namespace Toml

/-- The settings of a table; its other entries have to be readable. -/
def settings? (keys : List String) (entries : List (String × Toml)) :
    Option (String → Option Toml) :=
  if entries.all fun e => keys.contains e.1 || e.2.isReadable then
    some fun key => entries.lookup key
  else none

/-- The settings of a section. -/
def section? (keys : List String) : Toml → Option (String → Option Toml)
  | .table entries => settings? keys entries
  | .array items => some fun key => (keys.zip items).lookup key
  | .datetime => some fun _ => none
  | _ => none

/-- A setting, or its default if it is missing. -/
def setting? {α : Type} (read : Toml → Option α) (default : α) : Option Toml → Option α
  | none => some default
  | some v => read v

/-- A text. -/
def text? : Toml → Option String
  | .string s => some s
  | _ => none

/-- A switch. -/
def flag? : Toml → Option Bool
  | .boolean b => some b
  | _ => none

/-- A port: an integer of 16 bits. -/
def port? : Toml → Option Nat
  | .integer (some n) => if 0 ≤ n && n < UInt16.size then some n.toNat else none
  | _ => none

/-- A word. -/
def word? : Toml → Option String
  | .string s => some s
  | .table [(key, .table [])] => some key
  | .table [(key, .array [])] => some key
  | _ => none

end Toml

/-- The word for a language. -/
def Language.name : Language → String
  | english => "english"

/-- The language of a word. -/
def Language.ofName? (s : String) : Option Language :=
  [english].find? fun language => language.name == s

/-- The word for a level. -/
def LogLevel.name : LogLevel → String
  | error => "error"
  | warning => "warning"
  | log => "log"
  | debug => "debug"

/-- The level of a word. -/
def LogLevel.ofName? (s : String) : Option LogLevel :=
  [error, warning, log, debug].find? fun level => level.name == s

/-- The settings of a logger in the order of their array form. -/
def LoggerSettings.keys : List String := ["log_colors", "log_level"]

/-- The settings of a logger. -/
def LoggerSettings.ofToml? (v : Toml) : Option LoggerSettings := do
  let get ← v.section? keys
  let d := LoggerSettings.default
  let colors ← Toml.setting? Toml.flag? d.colors (get "log_colors")
  let logLevel ← Toml.setting? (·.word?.bind LogLevel.ofName?) d.logLevel (get "log_level")
  return { colors, logLevel }

/-- The settings of a client in the order of their array form. -/
def ClientSettings.keys : List String :=
  ["host", "port", "username", "password", "database", "tls"]

/-- The settings of a client. -/
def ClientSettings.ofToml? (v : Toml) : Option ClientSettings := do
  let get ← v.section? keys
  let d := ClientSettings.default
  let host ← Toml.setting? Toml.text? d.host (get "host")
  let port ← Toml.setting? Toml.port? d.port (get "port")
  let username ← Toml.setting? Toml.text? d.username (get "username")
  let password ← Toml.setting? Toml.text? d.password (get "password")
  let database ← Toml.setting? Toml.text? d.database (get "database")
  let tls ← Toml.setting? Toml.flag? d.tls (get "tls")
  return { host, port, username, password, database, tls }

namespace Settings

/-- The settings of a file. -/
def keys : List String := ["identifier", "language", "logger", "client"]

/-- The settings that the entries of a file give. -/
def ofEntries? (entries : List (String × Toml)) : Option Settings := do
  let get ← Toml.settings? keys entries
  let d := Settings.default
  let identifier ← Toml.setting? Toml.text? d.identifier (get "identifier")
  let language ←
    Toml.setting? (·.word?.bind Language.ofName?) d.language (get "language")
  let logger ← Toml.setting? LoggerSettings.ofToml? d.logger (get "logger")
  let client ← Toml.setting? ClientSettings.ofToml? d.client (get "client")
  return { identifier, language, logger, client }

/-- The settings that a text gives. -/
def ofToml (text : String) : Except QueryError Settings :=
  match (Toml.parse? text).bind ofEntries? with
  | some settings => .ok settings
  | none => .error (.config .invalid)

end Settings

/-- What stands under a path of a file system. -/
inductive FileEntry where
  | missing
  | directory
  | file (content : List UInt8)
deriving DecidableEq, Repr

/-- The text of a file. -/
def FileEntry.text : FileEntry → Except ReadError String
  | missing => .error .notFound
  | directory => .error .isDirectory
  | file content =>
    match Utf8.decode? content with
    | some text => .ok text
    | none => .error .notUtf8

/-- The settings in the file under a path, given what stands there. -/
def Settings.load (path : String) (entry : FileEntry) : Except QueryError Settings :=
  match entry.text with
  | .ok text => ofToml text
  | .error cause => .error (.config (.unreadable path cause))

end TenantSql
