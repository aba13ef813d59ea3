import Tabular.Engine
import Tabular.Statement
import Tabular.Text.Clip

/-!
# Tables

Access to the rows of one table through an engine. Every operation first puts its statement
together, so that a misuse is refused before anything happens; then it readies the engine, renders
the statement with the placeholders of the engine and sends it. Rows come back with dates in texts
read as instants.

- `Table.select`, `selectOne`, `count`, `insert`, `insertMany`, `update`, `delete`: the operations.
- `TableSettings`: the largest batch, and what is logged of statements.
-/

namespace Tabular

/-- The settings of a table. -/
structure TableSettings where
  /-- The most rows that one batch may have. -/
  batchLimit : Nat := 50
  /-- Every statement is logged, not only those asked for. -/
  logStatements : Bool := false
  /-- The bytes after which logged statements are cut off. -/
  maxLogged : Option Nat := some 200
  /-- The level that statements are logged at. -/
  level : Level := .debug
deriving DecidableEq

namespace TableSettings

/-- The text of a statement as it is logged. -/
def logged (settings : TableSettings) (text : String) : String :=
  match settings.maxLogged with
  | some max => Text.excerpt max text
  | none => text

end TableSettings

/-- A table whose rows are read as `ρ`. -/
structure Table (ρ : Type) where
  /-- The name as it is written in statements. -/
  name : String
  settings : TableSettings := {}
  /-- Reads a row. -/
  decode : Record → Except Failure ρ

namespace Table

variable {κ ρ α σ : Type} [Named κ]

/-- Reports the text of a statement if it is asked for. -/
def log (t : Table ρ) (text : String) (parameters : Nat) (debug : Bool) : Action σ Unit :=
  if debug || t.settings.logStatements then
    Action.emit (.statement t.settings.level t.name parameters (t.settings.logged text))
  else return ()

/-- Sends a statement and gives the rows of the answer as callers see them. -/
def query (t : Table ρ) (engine : Engine σ) (statement : Fragment) (debug : Bool) :
    Action σ (List Record) := do
  engine.ready
  let text ← engine.render statement
  t.log text statement.params.length debug
  let rows ← engine.all text statement.params
  Action.ofExcept (rows.mapM Record.decode)

/-- Sends a statement and gives the number of rows that it changed. -/
def execute (t : Table ρ) (engine : Engine σ) (statement : Fragment) : Action σ Nat := do
  engine.ready
  let text ← engine.render statement
  t.log text statement.params.length false
  engine.run text statement.params

/-- The rows that meet a predicate, each read by `decode`. -/
def fetch (t : Table ρ) (engine : Engine σ) (join : Option JoinClause)
    (decode : Record → Except Failure α) (predicate : Predicate κ) (query : Query κ) :
    Action σ (List α) := do
  let rows ← t.query engine (Statement.select t.name join predicate query) query.debug
  Action.ofExcept (rows.mapM decode)

/-- The first row that meets a predicate. Only one row is asked for, and any other limit is a
misuse. -/
def fetchOne (t : Table ρ) (engine : Engine σ) (join : Option JoinClause)
    (decode : Record → Except Failure α) (predicate : Predicate κ) (query : Query κ) :
    Action σ (Option α) :=
  let limit := query.limit.getD 1
  if limit = 1 then do
    let rows ← t.fetch engine join decode predicate { query with limit := some 1 }
    return rows.head?
  else throw (.configuration (.limitNotOne limit))

/-- The rows that meet a predicate, read in another way than rows of the table. -/
def selectAs (t : Table ρ) (engine : Engine σ) (decode : Record → Except Failure α)
    (predicate : Predicate κ) (query : Query κ) : Action σ (List α) :=
  t.fetch engine none decode predicate query

/-- The rows that meet a predicate. -/
def select (t : Table ρ) (engine : Engine σ) (predicate : Predicate κ) (query : Query κ) :
    Action σ (List ρ) :=
  t.selectAs engine t.decode predicate query

/-- The first row that meets a predicate, read in another way than rows of the table. -/
def selectOneAs (t : Table ρ) (engine : Engine σ) (decode : Record → Except Failure α)
    (predicate : Predicate κ) (query : Query κ) : Action σ (Option α) :=
  t.fetchOne engine none decode predicate query

/-- The first row that meets a predicate. -/
def selectOne (t : Table ρ) (engine : Engine σ) (predicate : Predicate κ) (query : Query κ) :
    Action σ (Option ρ) :=
  t.selectOneAs engine t.decode predicate query

/-- The number of rows that meet a predicate; of the query only `debug` matters. -/
def count (t : Table ρ) (engine : Engine σ) (predicate : Predicate κ) (query : Query κ) :
    Action σ Int64 := do
  let rows ← t.query engine (Statement.count t.name predicate) query.debug
  match rows with
  | [] => return 0
  | row :: _ => Action.ofExcept (row.getAs Int64 "count")

/-- Puts a row into the table and gives it as it is kept. -/
def insert (t : Table ρ) (engine : Engine σ) (row : Record) : Action σ ρ := do
  let rows ← t.query engine (Statement.insert t.name row) false
  match rows.getLast? with
  | some row => Action.ofExcept (t.decode row)
  | none => throw (.storage (.noRowReturned t.name))

/-- Puts the rows of a batch in from the one with this index on. The first failure ends the batch
and is reported. -/
def insertFrom (t : Table ρ) (engine : Engine σ) (total : Nat) :
    Nat → List Record → Action σ (List ρ)
  | _, [] => return []
  | index, row :: rows => do
    let kept ← Action.handle (t.insert engine row) fun e => do
      Action.emit (.batchStopped t.name index total e)
      throw e
    return kept :: (← t.insertFrom engine total (index + 1) rows)

/-- Puts rows into the table, one statement each. A batch above the limit is a misuse. Rows that
went in before a failure stay. -/
def insertMany (t : Table ρ) (engine : Engine σ) (rows : List Record) : Action σ (List ρ) :=
  if t.settings.batchLimit < rows.length then
    throw (.configuration (.batchTooLarge t.settings.batchLimit rows.length))
  else t.insertFrom engine rows.length 0 rows

/-- Changes the rows that meet a predicate and gives their number. -/
def update (t : Table ρ) (engine : Engine σ) (mutation : Mutation κ) (predicate : Predicate κ) :
    Action σ Nat := do
  let assignments ← Action.ofExcept mutation.clause
  t.execute engine (Statement.update t.name assignments predicate)

/-- Takes the rows that meet a predicate out of the table. -/
def delete (t : Table ρ) (engine : Engine σ) (predicate : Predicate κ) : Action σ Unit := do
  let _ ← t.execute engine (Statement.delete t.name predicate)

end Table

end Tabular
