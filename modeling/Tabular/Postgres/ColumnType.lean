/-!
# PostgreSQL column types

The types that a server reports for placeholders and columns: those of its own, of which the ones
with a value form are told apart, and those made by users. A type made by a user is none of the
server's own, even under the same name.
-/

namespace Tabular

namespace Postgres

/-- The types of the server. -/
inductive Builtin where
  | bool
  | int2
  | int4
  | int8
  | float4
  | float8
  | text
  | varchar
  | bpchar
  | name
  | unknown
  | bytea
  | timestamp
  | timestamptz
  | date
  | time
  | json
  | jsonb
  /-- A type without a value form. -/
  | other (name : String)
deriving DecidableEq

namespace Builtin

/-- The types with a value form, by name. -/
def named : List (String × Builtin) :=
  [("bool", bool), ("int2", int2), ("int4", int4), ("int8", int8), ("float4", float4),
    ("float8", float8), ("text", text), ("varchar", varchar), ("bpchar", bpchar), ("name", name),
    ("unknown", unknown), ("bytea", bytea), ("timestamp", timestamp),
    ("timestamptz", timestamptz), ("date", date), ("time", time), ("json", json),
    ("jsonb", jsonb)]

/-- The type of the server with this name. -/
def ofName (s : String) : Builtin := (named.lookup s).getD (other s)

/-- The name of a type of the server. -/
def typeName : Builtin → String
  | other s => s
  | b => ((named.find? fun e => e.2 = b).map Prod.fst).getD ""

end Builtin

/-- The type of a placeholder or of a column. -/
inductive ColumnType where
  | builtin (b : Builtin)
  /-- A type made by a user, and whether it is an enumeration. -/
  | custom (name schema : String) (isEnum : Bool)
deriving DecidableEq

namespace ColumnType

/-- The name of a type without its schema. -/
def baseName : ColumnType → String
  | builtin b => b.typeName
  | custom name _ _ => name

/-- The name of a type, with its schema where that is not searched by default. -/
def fullName : ColumnType → String
  | builtin b => b.typeName
  | custom name schema _ =>
    if schema = "public" ∨ schema = "pg_catalog" then name else schema ++ "." ++ name

/-- The bytes in front of a text of this type, if texts are bound to it. -/
def textMark? : ColumnType → Option (List UInt8)
  | builtin .text | builtin .varchar | builtin .bpchar | builtin .name | builtin .unknown =>
    some []
  | builtin _ => none
  | custom name _ _ =>
    if name = "citext" then some []
    else if name = "ltree" ∨ name = "lquery" ∨ name = "ltxtquery" then some [1]
    else none

end ColumnType

end Postgres

end Tabular
