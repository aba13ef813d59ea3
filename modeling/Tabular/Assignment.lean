import Tabular.Failure
import Tabular.Fragment
import Tabular.OrderedMap

/-!
# Assignments

What an update does to the columns of a row.

- `Assignment`: a new value, or arithmetic on the present one by at most one operand for each
  operator.
- `Mutation`: columns with their assignments. Arithmetic on one column adds up, and a new value
  replaces what the column had.
- `Mutation.clause`: the text that follows `SET`; a mutation that assigns nothing is refused.
-/

namespace Tabular

/-- The operators of an update, in the order in which those of one column are written. -/
inductive UpdateOperator where
  | set
  | increment
  | decrement
  | multiply
  | divide
deriving DecidableEq

namespace UpdateOperator

/-- All operators in the order in which they are written. -/
def all : List UpdateOperator := [set, increment, decrement, multiply, divide]

/-- The sign between the present value and the operand; `set` does not look at the value. -/
def sign? : UpdateOperator → Option String
  | set => none
  | increment => some "+"
  | decrement => some "-"
  | multiply => some "*"
  | divide => some "/"

/-- The assignment of one operator to a column. -/
def clause (op : UpdateOperator) (column : String) (operand : Number) : Fragment :=
  match op.sign? with
  | none => .raw (column ++ " = ") ++ .bind operand.toValue
  | some sign =>
    .raw (column ++ " = " ++ column ++ " " ++ sign ++ " ") ++ .bind operand.toValue

end UpdateOperator

/-- At most one operand for each operator. -/
abbrev Arithmetic := UpdateOperator → Option Number

namespace Arithmetic

/-- No operator. -/
def none : Arithmetic := fun _ => Option.none

/-- The operators with the operand of one set. -/
def set (ops : Arithmetic) (op : UpdateOperator) (operand : Number) : Arithmetic :=
  fun o => if o = op then some operand else ops o

/-- The operators of both, those of the second where both have one. -/
def merge (older newer : Arithmetic) : Arithmetic := fun o => newer o <|> older o

/-- One operator. -/
def single (op : UpdateOperator) (operand : Number) : Arithmetic := none.set op operand

/-- The operators that have an operand, in the order in which they are written. -/
def toList (ops : Arithmetic) : List (UpdateOperator × Number) :=
  UpdateOperator.all.filterMap fun op => (ops op).map fun operand => (op, operand)

end Arithmetic

/-- What becomes of one column. -/
inductive Assignment where
  /-- The column takes the value. -/
  | value (v : Value)
  /-- The operators are applied to the column. -/
  | arithmetic (ops : Arithmetic)

/-- The assignments of one column, separated by commas. -/
def Assignment.clause (column : String) : Assignment → Fragment
  | value v => .raw (column ++ " = ") ++ .bind v
  | arithmetic ops =>
    Fragment.join ", " (ops.toList.map fun (op, operand) => op.clause column operand)

/-- Columns with their assignments. -/
structure Mutation (κ : Type) where
  columns : OrderedMap κ Assignment

namespace Mutation

variable {κ : Type} [Named κ]

/-- The mutation that changes nothing. -/
def empty : Mutation κ := ⟨OrderedMap.empty⟩

/-- No column is mentioned. -/
def isEmpty (m : Mutation κ) : Bool := m.columns.isEmpty

/-- The mutation with this assignment to a column in place of any other. -/
def assign (m : Mutation κ) (column : κ) (a : Assignment) : Mutation κ :=
  ⟨m.columns.insert column a⟩

/-- The column takes the value. -/
def set (m : Mutation κ) (column : κ) (v : Value) : Mutation κ := m.assign column (.value v)

/-- The operators are applied to the column besides those that it has; a new value is replaced. -/
def apply (m : Mutation κ) (column : κ) (ops : Arithmetic) : Mutation κ :=
  ⟨m.columns.alter column fun
    | some (.arithmetic older) => .arithmetic (older.merge ops)
    | _ => .arithmetic ops⟩

/-- One operator is applied to the column. -/
def operate (m : Mutation κ) (column : κ) (op : UpdateOperator) (operand : Number) :
    Mutation κ :=
  m.apply column (.single op operand)

/-- The assignments in order, separated by commas. -/
def clause (m : Mutation κ) : Except Failure Fragment :=
  let all := Fragment.join ", "
    (m.columns.entries.map fun (column, a) => a.clause (Named.name column))
  if all.isEmpty then .error (.configuration .noAssignment) else .ok all

end Mutation

end Tabular
