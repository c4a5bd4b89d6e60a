import TenantSql.Log
/-!
# TenantSql.Settings.Basic

The settings that statements need: how to log, and where the database is. Every
setting has a default, so an empty file is a complete one.
-/

namespace TenantSql

/-- The languages of messages to people. -/
inductive Language where
  | english
deriving DecidableEq, Repr

/-- How to log. -/
structure LoggerSettings where
  colors : Bool
  logLevel : LogLevel
deriving DecidableEq, Repr

/-- Where the database is, and who asks. Empty credentials mean none. -/
structure ClientSettings where
  host : String
  port : Nat
  username : String
  password : String
  database : String
  tls : Bool
deriving DecidableEq, Repr

/-- All settings. -/
structure Settings where
  identifier : String
  language : Language
  logger : LoggerSettings
  client : ClientSettings
deriving DecidableEq, Repr

/-- Colours, and the level of a log. -/
def LoggerSettings.default : LoggerSettings := ⟨true, .log⟩

/-- The level that statements are reported at. -/
def LoggerSettings.level (s : LoggerSettings) : Level := s.logLevel.level

/-- A database on this machine at the usual port, without credentials and encryption. -/
def ClientSettings.default : ClientSettings := ⟨"127.0.0.1", 5432, "", "", "", false⟩

/-- No identifier, English, and the defaults of the sections. -/
def Settings.default : Settings := ⟨"", .english, .default, .default⟩

/-- The tracer for a logger's settings. -/
def Tracer.ofLogger (s : LoggerSettings) : Tracer := .ofLogLevel s.logLevel

end TenantSql
