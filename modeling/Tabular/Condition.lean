import Tabular.OrderedMap
import Tabular.Value

/-!
# Conditions on rows

What a statement asks of the rows it touches, as data.

- `Condition`: one value, one of several values, or comparisons by operators.
- `Filter`: conditions on columns, all of which hold.
- `Predicate`: one filter, or several of which at least one holds.

Comparisons of one column add up, and every other condition replaces the one before it.
-/

namespace Tabular

/-- The comparison operators, in the order in which those of one column are written. -/
inductive Comparison where
  | greater
  | greaterOrEqual
  | less
  | lessOrEqual
  | notEqual
  | equal
deriving DecidableEq

namespace Comparison

/-- All operators in the order in which they are written. -/
def all : List Comparison := [greater, greaterOrEqual, less, lessOrEqual, notEqual, equal]

/-- The sign of an operator. -/
def sign : Comparison → String
  | greater => ">"
  | greaterOrEqual => ">="
  | less => "<"
  | lessOrEqual => "<="
  | notEqual => "<>"
  | equal => "="

end Comparison

/-- What a column is compared with. -/
inductive Operand where
  | one (v : Value)
  | many (vs : List Value)

/-- At most one operand for each operator. -/
abbrev Comparisons := Comparison → Option Operand

namespace Comparisons

/-- No comparison. -/
def none : Comparisons := fun _ => Option.none

/-- The comparisons with the operand of one operator set. -/
def set (cs : Comparisons) (op : Comparison) (operand : Operand) : Comparisons :=
  fun o => if o = op then some operand else cs o

/-- The comparisons of both, those of the second where both have one. -/
def merge (older newer : Comparisons) : Comparisons := fun o => newer o <|> older o

/-- The comparison by one operator. -/
def single (op : Comparison) (operand : Operand) : Comparisons := none.set op operand

/-- The operators that have an operand, in the order in which they are written. -/
def toList (cs : Comparisons) : List (Comparison × Operand) :=
  Comparison.all.filterMap fun op => (cs op).map fun operand => (op, operand)

end Comparisons

/-- What is asked of one column. -/
inductive Condition where
  /-- The column equals the value. -/
  | equals (v : Value)
  /-- The column equals one of the values. -/
  | anyOf (vs : List Value)
  /-- All comparisons hold. -/
  | compare (cs : Comparisons)

/-- Conditions on columns, all of which hold. -/
structure Filter (κ : Type) where
  columns : OrderedMap κ Condition

namespace Filter

variable {κ : Type} [Named κ]

/-- The filter that every row passes. -/
def empty : Filter κ := ⟨OrderedMap.empty⟩

/-- The number of columns with a condition. -/
def size (f : Filter κ) : Nat := f.columns.size

/-- No column has a condition. -/
def isEmpty (f : Filter κ) : Bool := f.columns.isEmpty

/-- The filter with this condition on a column in place of any other. -/
def set (f : Filter κ) (column : κ) (c : Condition) : Filter κ := ⟨f.columns.insert column c⟩

/-- The column equals the value. -/
def equals (f : Filter κ) (column : κ) (v : Value) : Filter κ := f.set column (.equals v)

/-- The column equals one of the values. -/
def anyOf (f : Filter κ) (column : κ) (vs : List Value) : Filter κ := f.set column (.anyOf vs)

/-- The comparisons hold besides those that the column has; any other condition is replaced. -/
def compare (f : Filter κ) (column : κ) (cs : Comparisons) : Filter κ :=
  ⟨f.columns.alter column fun
    | some (.compare older) => .compare (older.merge cs)
    | _ => .compare cs⟩

/-- The column compares in this way with the value. -/
def holds (f : Filter κ) (column : κ) (op : Comparison) (v : Value) : Filter κ :=
  f.compare column (.single op (.one v))

end Filter

/-- One filter, or several of which at least one holds. -/
inductive Predicate (κ : Type) where
  | all (f : Filter κ)
  | any (fs : List (Filter κ))

namespace Predicate

variable {κ : Type} [Named κ]

/-- The predicate that every row meets. -/
def everything : Predicate κ := .all Filter.empty

/-- The predicate with one more alternative. -/
def or : Predicate κ → Filter κ → Predicate κ
  | all f, g => any [f, g]
  | any fs, g => any (fs ++ [g])

end Predicate

/-- Either filter holds. -/
def Filter.or {κ : Type} (f g : Filter κ) : Predicate κ := .any [f, g]

end Tabular
