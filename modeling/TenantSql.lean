import TenantSql.Text.Basic
import TenantSql.Text.Utf8
import TenantSql.Text.Quoted
import TenantSql.Text.QueryString
import TenantSql.Text.Escaped
import TenantSql.Number.Decimal
import TenantSql.Number.Binary
import TenantSql.Number.Shortest
import TenantSql.Number.Reading
import TenantSql.Keyed
import TenantSql.Json.Basic
import TenantSql.Json.Token
import TenantSql.Json.Document
import TenantSql.Json.Compact
import TenantSql.Error
import TenantSql.Ident
import TenantSql.Postgres.Type
import TenantSql.Postgres.Numeric
import TenantSql.Value.Basic
import TenantSql.Value.Wire
import TenantSql.Profile.Basic
import TenantSql.Profile.Draft
import TenantSql.Params
import TenantSql.Filter
import TenantSql.Row
import TenantSql.Log
import TenantSql.Statement.Basic
import TenantSql.Statement.Select
import TenantSql.Statement.Write
import TenantSql.Client.Basic
import TenantSql.Client.Session
import TenantSql.Toml.Basic
import TenantSql.Toml.Lexical
import TenantSql.Toml.Scalar
import TenantSql.Toml.Tree
import TenantSql.Toml.Document
import TenantSql.Settings.Basic
import TenantSql.Settings.OfToml
import TenantSql.Connection.Address
import TenantSql.Connection.Target
import TenantSql.Connection.Text
import TenantSql.Proofs.Lexer
import TenantSql.Proofs.SelectText
import TenantSql.Proofs.SelectTokens
import TenantSql.Proofs.ValueBlind
import TenantSql.Proofs.Weave
import TenantSql.Proofs.WriteText
import TenantSql.Proofs.Rounding
import TenantSql.Proofs.Numeral
import TenantSql.Proofs.IntegerBytes
import TenantSql.Proofs.Comparand
import TenantSql.Proofs.TenantIsolation
import TenantSql.Proofs.SelectMeaning
import TenantSql.Proofs.LiteralForm
import TenantSql.Proofs.ParamsHistory
import TenantSql.Proofs.BuildOutcome
import TenantSql.Proofs.DraftChecks
import TenantSql.Proofs.ReadBack
import TenantSql.Proofs.NumericWire
import TenantSql.Proofs.NumericCast
import TenantSql.Proofs.RowMembers
import TenantSql.Proofs.JsonIntegers
import TenantSql.Proofs.QueryWriting
import TenantSql.Proofs.TracedRun
import TenantSql.Proofs.SessionRun
import TenantSql.Proofs.IntegerBinding
import TenantSql.Proofs.ConnectionMeaning
import TenantSql.Proofs.InsertLayout
import TenantSql.Proofs.ShortestDecimal
import TenantSql.Proofs.DisplayedDecimal
import TenantSql.Proofs.NumericColumn
import TenantSql.Proofs.WholeDoubles
import TenantSql.Proofs.NumberRange
import TenantSql.Proofs.SelectClauses
import TenantSql.Proofs.UpsertNames
import TenantSql.Proofs.QueryJoin
import TenantSql.Proofs.NumericText
import TenantSql.Proofs.NumberRoundTrip
import TenantSql.Proofs.QueryEdits
import TenantSql.Proofs.AtomicClauses
import TenantSql.Proofs.StatementEquality
import TenantSql.Proofs.Truncation
import TenantSql.Proofs.DraftOrder
import TenantSql.Proofs.Utf8Bytes
import TenantSql.Proofs.TypeAcceptance
import TenantSql.Proofs.JsonRows
import TenantSql.Proofs.TypedRows
import TenantSql.Proofs.DeleteLayout
import TenantSql.Proofs.ConditionText
import TenantSql.Proofs.ComparisonLetters
import TenantSql.Proofs.Fraction
