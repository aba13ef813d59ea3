import Tabular.Assignment
import Tabular.Condition.Clause
import Tabular.Record

/-!
# Statements

The statements that accessors send, as fragments.

- `Query`: which columns a selection returns, in which order and how many rows of it.
- `Statement.select`, `count`, `insert`, `update`, `delete`: the statements.
-/

namespace Tabular

/-- The direction of an order. -/
inductive Direction where
  | ascending
  | descending
deriving DecidableEq

/-- The word for a direction. -/
def Direction.word : Direction → String
  | ascending => "ASC"
  | descending => "DESC"

/-- The column that rows are ordered by. -/
structure Order (κ : Type) where
  column : κ
  direction : Direction := .ascending

/-- What a selection returns of the rows that meet its predicate. -/
structure Query (κ : Type) where
  /-- The columns; none named stands for all of them. -/
  columns : List κ := []
  /-- The most rows that are returned. -/
  limit : Option Nat := none
  order : Option (Order κ) := none
  /-- The statement is logged. -/
  debug : Bool := false

/-- A second table that the rows of a first one are joined with. -/
structure JoinClause where
  /-- The text between the first table and the conditions. -/
  text : String
  /-- The second table. -/
  table : String

namespace Statement

variable {κ : Type} [Named κ]

/-- A column in a projection. One that is qualified by its table is named by the qualified name, so
that columns of two tables stay apart. -/
def projected (name : String) : String :=
  if name.contains '.' then name ++ " AS \"" ++ name ++ "\"" else name

/-- What is selected: the named columns, or all columns of the table and of the joined one. -/
def projection (table : String) (join : Option JoinClause) (columns : List κ) : String :=
  match columns with
  | [] =>
    match join with
    | none => table ++ ".*"
    | some j => table ++ ".*, " ++ j.table ++ ".*"
  | columns => ", ".intercalate (columns.map fun c => projected (Named.name c))

/-- The rows of a table that meet a predicate. -/
def select (table : String) (join : Option JoinClause) (predicate : Predicate κ)
    (query : Query κ) : Fragment :=
  let source := match join with
    | none => ""
    | some j => " " ++ j.text
  let order := match query.order with
    | none => ""
    | some o => " ORDER BY " ++ Named.name o.column ++ " " ++ o.direction.word
  let limit := match query.limit with
    | none => ""
    | some n => " LIMIT " ++ toString n
  .raw ("SELECT " ++ projection table join query.columns ++ " FROM " ++ table ++ source ++
    " WHERE ") ++ predicate.clause ++ .raw (order ++ limit)

/-- The number of rows of a table that meet a predicate. -/
def count (table : String) (predicate : Predicate κ) : Fragment :=
  .raw ("SELECT COUNT(*) AS count FROM " ++ table ++ " WHERE ") ++ predicate.clause

/-- A row put into a table; the store answers with the row as it is kept. -/
def insert (table : String) (row : Record) : Fragment :=
  if row.isEmpty then .raw ("INSERT INTO " ++ table ++ " DEFAULT VALUES RETURNING *")
  else
    let values := Fragment.join ", " (row.entries.map fun e => .bind e.2)
    .raw ("INSERT INTO " ++ table ++ " (" ++ ", ".intercalate row.names ++ ") VALUES (") ++
      values ++ .raw ") RETURNING *"

/-- The assignments made to the rows of a table that meet a predicate. -/
def update (table : String) (assignments : Fragment) (predicate : Predicate κ) : Fragment :=
  .raw ("UPDATE " ++ table ++ " SET ") ++ assignments ++ .raw " WHERE " ++ predicate.clause

/-- The rows of a table that meet a predicate taken out of it. -/
def delete (table : String) (predicate : Predicate κ) : Fragment :=
  .raw ("DELETE FROM " ++ table ++ " WHERE ") ++ predicate.clause

end Statement

end Tabular
