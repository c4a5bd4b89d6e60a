/-!
# TenantSql.Postgres.Type

The types of Postgres columns and placeholders, as far as values meet them: the
built-in ones, and types that a database defines, which are known by name and
schema only and never equal a built-in type.
-/

namespace TenantSql

/-- A type that every database has. -/
inductive BuiltinType where
  | int2 | int4 | int8 | float4 | float8 | numeric
  | varchar | text | bpchar | name | unknown
  | bool | char | oid | bytea | json | jsonb | uuid | date | timestamptz | money | xml
  | int8Array | textArray
deriving DecidableEq, Repr

/-- A Postgres type. A built-in type without a constructor meets values by its name alone, and counts
as a custom one of the schema `pg_catalog`. -/
inductive PgType where
  | builtin (type : BuiltinType)
  | custom (name schema : String)
deriving DecidableEq, Repr

namespace BuiltinType

/-- The name of a built-in type. -/
def sqlName : BuiltinType → String
  | int2 => "int2"
  | int4 => "int4"
  | int8 => "int8"
  | float4 => "float4"
  | float8 => "float8"
  | numeric => "numeric"
  | varchar => "varchar"
  | text => "text"
  | bpchar => "bpchar"
  | name => "name"
  | unknown => "unknown"
  | bool => "bool"
  | char => "char"
  | oid => "oid"
  | bytea => "bytea"
  | json => "json"
  | jsonb => "jsonb"
  | uuid => "uuid"
  | date => "date"
  | timestamptz => "timestamptz"
  | money => "money"
  | xml => "xml"
  | int8Array => "_int8"
  | textArray => "_text"

/-- The built-in types, for reading their names. -/
def all : List BuiltinType :=
  [int2, int4, int8, float4, float8, numeric, varchar, text, bpchar, name, unknown, bool, char,
    oid, bytea, json, jsonb, uuid, date, timestamptz, money, xml, int8Array, textArray]

/-- The built-in type of a name. -/
def ofName? (s : String) : Option BuiltinType :=
  all.find? fun t => t.sqlName == s

end BuiltinType

namespace PgType

/-- A type in a message: its name, with the schema unless that is searched anyway. -/
def display : PgType → String
  | builtin type => type.sqlName
  | custom name schema =>
    if schema = "public" || schema = "pg_catalog" then name else schema ++ "." ++ name

/-- Types of extensions that take text behind a leading version byte. -/
def takesVersionedText : PgType → Bool
  | builtin _ => false
  | custom name _ => name == "ltree" || name == "lquery" || name == "ltxtquery"

/-- Types that take text. Types of extensions are known by name, in whatever schema. -/
def takesText (type : PgType) : Bool :=
  match type with
  | builtin .varchar | builtin .text | builtin .bpchar | builtin .name | builtin .unknown => true
  | builtin _ => false
  | custom name _ => name == "citext" || type.takesVersionedText

/-- Types that take numbers. -/
def takesNumbers : PgType → Bool
  | builtin .int2 | builtin .int4 | builtin .int8 => true
  | builtin .float4 | builtin .float8 | builtin .numeric => true
  | _ => false

end PgType

end TenantSql
