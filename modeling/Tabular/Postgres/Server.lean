import Tabular.Engine
import Tabular.Postgres.Row

/-!
# PostgreSQL servers

A server that answers statements from a list of exchanges, as the client of a connection sees it: a
statement is prepared, its parameters are bound to the types that the server inferred, and it is
executed.

- `Exchange.changes`, `Exchange.records`: what the client makes of the answer to an executed
  statement.
- `Server.execute`: a statement on its way through the three steps. Messages end their texts with a
  zero character, so a statement with one in it is never sent.
-/

namespace Tabular

namespace Postgres

/-- What a server reports when it rejects a statement. -/
structure Rejection where
  code : String
  message : String
  /-- The violated constraint. -/
  constraint : Option String := none

/-- The failure of a rejected statement: a violated constraint is named, anything else is not told
apart. -/
def Rejection.failure (r : Rejection) : Failure :=
  match r.constraint with
  | some constraint => .storage (.constraint constraint r.code r.message)
  | none => .query .rejected

/-- What a server does with one statement. -/
structure Exchange where
  /-- The server ends the connection. -/
  drop : Bool := false
  /-- The statement is rejected before parameters are bound. -/
  prepareRejection : Option Rejection := none
  /-- The types of the placeholders. -/
  parameters : List ColumnType := []
  /-- The statement is rejected in execution. -/
  rejection : Option Rejection := none
  columns : List AnswerColumn := []
  rows : List (List (Option Bytes)) := []
  /-- What the server says it has done. -/
  tag : String := ""

/-- The number of rows in a tag: the unsigned number of 64 bits after its last blank, or zero. -/
def tagCount (tag : String) : Nat :=
  let last := (tag.toList.reverse.takeWhile (· ≠ ' ')).reverse
  let digits := match last with
    | '+' :: ds => ds
    | ds => ds
  match Text.readNat? digits with
  | some n => if n < UInt64.size then n else 0
  | none => 0

/-- The number of changed rows that an executed statement is answered with; rows are passed over. -/
def Exchange.changes (e : Exchange) : Except Failure Nat :=
  match e.rejection with
  | some r => .error r.failure
  | none => .ok (tagCount e.tag)

/-- The records that an executed statement is answered with. The rows come before a rejection, and
all of them before any is decoded; each has to have one cell for each column. -/
def Exchange.records (e : Exchange) : Except Failure (List Record) :=
  if e.rows.all fun cells => cells.length = e.columns.length then
    match e.rejection with
    | some r => .error r.failure
    | none => e.rows.mapM (decodeRow e.columns)
  else .error (.query .response)

/-- A statement, and its bound parameters if it got so far. -/
structure Delivery where
  text : String
  params : Option (List (Option Bytes))

/-- A server and the connection to it. -/
structure Server where
  exchanges : List Exchange
  closed : Bool := false
  /-- The end of the connection is reported. -/
  watched : Bool := false
  received : List Delivery := []

/-- Parameters bound from the one with this index on. -/
def bindFrom : Nat → List Value → List ColumnType → Except Failure (List (Option Bytes))
  | index, v :: vs, type :: types =>
    match bind v type with
    | .ok b => (bindFrom (index + 1) vs types).map (b :: ·)
    | .error _ => .error (.query (.parameter index))
  | _, _, _ => .ok []

/-- Parameters bound to the types of their placeholders. -/
def bindAll (params : List Value) (types : List ColumnType) :
    Except Failure (List (Option Bytes)) :=
  if params.length = types.length then bindFrom 0 params types
  else .error (.query (.parameterCount types.length params.length))

namespace Server

variable {α : Type}

/-- What becomes of a statement in an exchange, and its bound parameters if it gets so far; `read`
makes the result of the exchange once the statement is executed. -/
def answer (read : Exchange → Except Failure α) (e : Exchange) (params : List Value) :
    Except Failure α × Option (List (Option Bytes)) :=
  match e.prepareRejection with
  | some r => (.error r.failure, none)
  | none =>
    match bindAll params e.parameters with
    | .error failure => (.error failure, none)
    | .ok bound => (read e, some bound)

/-- Sends a statement and gives what `read` makes of the exchange that answers it. -/
def execute (read : Exchange → Except Failure α) (text : String) (params : List Value) :
    Action Server α := fun s =>
  if '\x00' ∈ text.toList then ⟨.error (.query .encoding), s, []⟩
  else if s.closed then ⟨.error (.query .closed), s, []⟩
  else
    let e := s.exchanges.headD {}
    let s := { s with exchanges := s.exchanges.tail }
    if e.drop then
      ⟨.error (.query .closed), { s with closed := true, received := s.received ++ [⟨text, none⟩] },
        if s.watched then [.connectionLost] else []⟩
    else
      let (result, bound) := answer read e params
      ⟨result, { s with received := s.received ++ [⟨text, bound⟩] }, []⟩

/-- The engine of a connection to a server. -/
def engine : Engine Server where
  placeholder _ := .numbered
  run := execute Exchange.changes
  all := execute Exchange.records

end Server

end Postgres

end Tabular
