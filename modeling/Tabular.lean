import Tabular.Action
import Tabular.Assignment
import Tabular.Binary.Double
import Tabular.Binary.Format
import Tabular.Binary.Notation
import Tabular.Binary.Shortest
import Tabular.Calendar.Canonical
import Tabular.Calendar.Date
import Tabular.Calendar.Instant
import Tabular.Calendar.Layout
import Tabular.Condition
import Tabular.Condition.Clause
import Tabular.Connection.Address
import Tabular.Connection.Settings
import Tabular.Connection.Target
import Tabular.Describe
import Tabular.Engine
import Tabular.Engine.Deferred
import Tabular.Engine.Recorder
import Tabular.Failure
import Tabular.Fragment
import Tabular.Join
import Tabular.Json.Basic
import Tabular.Json.Reader
import Tabular.Log
import Tabular.OrderedMap
import Tabular.Postgres.Binding
import Tabular.Postgres.ColumnType
import Tabular.Postgres.Row
import Tabular.Postgres.Server
import Tabular.Proofs.Clause.Grammar
import Tabular.Proofs.Clause.Meaning
import Tabular.Proofs.Fragment.Symbols
import Tabular.Proofs.Statement.Alignment
import Tabular.Proofs.Statement.Contents
import Tabular.Proofs.Statement.Placeholders
import Tabular.Record
import Tabular.Statement
import Tabular.Table
import Tabular.Text.Blank
import Tabular.Text.Bytes
import Tabular.Text.Clip
import Tabular.Text.Decimal
import Tabular.Value
import Tabular.Value.Convert
import Tabular.Proofs.Accessor.Call
import Tabular.Proofs.Accessor.Watch
import Tabular.Proofs.Accessor.Deliveries
import Tabular.Proofs.Accessor.Secrecy
import Tabular.Proofs.Calendar.CanonicalText
import Tabular.Proofs.Postgres.ReadBack
import Tabular.Proofs.Calendar.RoundTrip
import Tabular.Proofs.Calendar.Order
import Tabular.Proofs.Accessor.Opening
import Tabular.Proofs.Deferred.Session
import Tabular.Proofs.Deferred.Interleaving
import Tabular.Proofs.Accessor.Exchange
import Tabular.Proofs.Accessor.Misuse
import Tabular.Proofs.Accessor.Batch
import Tabular.Proofs.Calendar.Shapes
import Tabular.Proofs.Accessor.Rereading
import Tabular.Proofs.Accessor.Logging
import Tabular.Proofs.Calendar.Succession
import Tabular.Proofs.Postgres.Instants
import Tabular.Proofs.Calendar.Grammar
import Tabular.Proofs.Deferred.Contract
import Tabular.Proofs.OrderedMap.Extension
import Tabular.Proofs.Postgres.Fields
import Tabular.Proofs.Condition.Steps
import Tabular.Proofs.Join.Columns
import Tabular.Proofs.Binary.Rational
import Tabular.Proofs.Postgres.Integers
import Tabular.Proofs.OrderedMap.Alterations
import Tabular.Proofs.Fragment.Joins
import Tabular.Proofs.Assignment.Steps
import Tabular.Proofs.OrderedMap.Contents
import Tabular.Proofs.Record.History
import Tabular.Proofs.Fragment.Composition
import Tabular.Proofs.Postgres.Rows
import Tabular.Proofs.Text.Boundaries
import Tabular.Proofs.Json.Tokens
import Tabular.Proofs.Json.Grammar
import Tabular.Proofs.Json.Written
import Tabular.Proofs.Json.Scanning
import Tabular.Proofs.Json.Reading
import Tabular.Proofs.Record.Exchange
import Tabular.Proofs.Clause.Splicing
import Tabular.Proofs.Record.Decoding
