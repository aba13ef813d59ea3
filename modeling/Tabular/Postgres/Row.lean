import Tabular.Json.Reader
import Tabular.Postgres.Binding
import Tabular.Record

/-!
# Rows of answers

The values of the cells that a server answers with, and the records of its rows.

- `decodeCell?`: the value of a cell by the type of its column. A type without a value form gives
  its bytes as a blob.
- `decodeRow`: the record of a row. A later column of the same name replaces the value of an
  earlier one in its place; the first cell that cannot be decoded is the failure.
-/

namespace Tabular

namespace Postgres

/-- The number of so many bytes. -/
def word? (width : Nat) (bytes : Bytes) : Option Int :=
  if bytes.length = width then some (Text.readSigned bytes) else none

/-- The instant so many microseconds after 2000-01-01. -/
def instantOfMicroseconds? (n : Int) : Option Instant :=
  Instant.ofParts? (epochSeconds + n / 1000000) ((n % 1000000).toNat * 1000)

/-- Midnight so many days after 2000-01-01. -/
def instantOfDays? (n : Int) : Option Instant := Instant.ofParts? ((epochDays + n) * 86400) 0

/-- The time of day so many microseconds after midnight, to the second; days are passed over. -/
def timeOfDay (n : Int) : String :=
  let seconds := (n % 86400000000).toNat / 1000000
  String.ofList (Text.fixed 2 (seconds / 3600) ++ ':' :: Text.fixed 2 (seconds / 60 % 60) ++
    ':' :: Text.fixed 2 (seconds % 60))

/-- The compact text of a JSON document. -/
def document? (bytes : Bytes) : Option String := do
  let s ← Text.ofUtf8? bytes
  match Json.parse s.toList with
  | .ok v => some v.normalized.toText
  | .error _ => none

/-- The value of a cell, unless its bytes are not of its type. -/
def decodeCell? (type : ColumnType) (bytes : Bytes) : Option Value :=
  match type with
  | .builtin .bool =>
    match bytes with
    | [b] => some (.bool (b != 0))
    | _ => none
  | .builtin .int2 => (word? 2 bytes).map fun n => .integer (Int64.ofInt n)
  | .builtin .int4 => (word? 4 bytes).map fun n => .integer (Int64.ofInt n)
  | .builtin .int8 => (word? 8 bytes).map fun n => .integer (Int64.ofInt n)
  | .builtin .float4 =>
    if bytes.length = 4 then some (.real (Single.mk (.ofNat (Text.readNat bytes))).toDouble)
    else none
  | .builtin .float8 =>
    if bytes.length = 8 then some (.real ⟨.ofNat (Text.readNat bytes)⟩) else none
  | .builtin .text | .builtin .varchar | .builtin .bpchar | .builtin .name =>
    (Text.ofUtf8? bytes).map .text
  | .builtin .bytea => some (.blob bytes)
  | .builtin .timestamp | .builtin .timestamptz =>
    (word? 8 bytes).bind fun n => (instantOfMicroseconds? n).map .timestamp
  | .builtin .date => (word? 4 bytes).bind fun n => (instantOfDays? n).map .timestamp
  | .builtin .time => (word? 8 bytes).map fun n => .text (timeOfDay n)
  | .builtin .json => (document? bytes).map .text
  | .builtin .jsonb =>
    match bytes with
    | 1 :: bytes => (document? bytes).map .text
    | _ => none
  | .builtin .unknown | .builtin (.other _) => some (.blob bytes)
  | .custom _ _ isEnum =>
    if isEnum then
      match Text.ofUtf8? bytes with
      | some s => some (.text s)
      | none => some (.blob bytes)
    else some (.blob bytes)

/-- A column of an answer. -/
structure AnswerColumn where
  name : String
  type : ColumnType

/-- The value of the cell of a column, counted from zero; a cell without bytes is null. -/
def decodeField (index : Nat) (column : AnswerColumn) : Option Bytes → Except Failure Value
  | none => .ok .null
  | some bytes =>
    match decodeCell? column.type bytes with
    | some v => .ok v
    | none => .error (.decode column.name (.cell index))

/-- The cells from the column with this index on, put into a record. -/
def decodeFrom (record : Record) : Nat → List AnswerColumn → List (Option Bytes) →
    Except Failure Record
  | index, column :: columns, cell :: cells => do
    let v ← decodeField index column cell
    decodeFrom (record.insert column.name v) (index + 1) columns cells
  | _, _, _ => .ok record

/-- The record of a row. -/
def decodeRow (columns : List AnswerColumn) (cells : List (Option Bytes)) :
    Except Failure Record :=
  decodeFrom .empty 0 columns cells

end Postgres

end Tabular
