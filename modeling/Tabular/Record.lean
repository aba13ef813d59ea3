import Tabular.Json.Basic
import Tabular.OrderedMap
import Tabular.Value.Convert

/-!
# Records

A record is the ordered map from the column names of a row to its values.

- `Record.getAs`: the value of a column as a type; a column that is not there reads like null.
- `Record.decode`: the record as callers see it, with dates in texts read as instants.
- `Value.toJson`, `Record.toJson`: values and records in data exchange.
-/

namespace Tabular

/-- Column names with values. -/
abbrev Record := OrderedMap String Value

namespace Record

/-- The record without columns. -/
def empty : Record := OrderedMap.empty

/-- The value of a column as a member of a type; a column that is not there reads like null. -/
def getAs (α : Type) [FromValue α] (r : Record) (column : String) : Except Failure α :=
  fromValue column ((r.get? column).getD .null)

/-- The record with every value read, or the failure of the first that cannot be. -/
def decode (r : Record) : Except Failure Record := r.tryMap Value.decode

/-- The record with every value in the form that it is read in. -/
def decoded (r : Record) : Record := r.map Value.decoded

/-- The record with every value in the form that it is kept in. -/
def encoded (r : Record) : Record := r.map Value.encoded

end Record

/-- A value in data exchange: a blob is the list of its bytes, an instant its exchange text, and a
real that is not finite is null. -/
def Value.toJson : Value → Json
  | null => .null
  | integer n => .integer n.toInt
  | real x => .real x
  | text s => .text s
  | bool b => .bool b
  | blob bytes => .list (bytes.map fun b => .integer b.toNat)
  | timestamp t => .text t.exchange

/-- A record in data exchange: an object with the columns in order. -/
def Record.toJson (r : Record) : Json := .object (r.entries.map fun e => (e.1, e.2.toJson))

end Tabular
