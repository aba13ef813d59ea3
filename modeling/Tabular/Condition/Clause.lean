import Tabular.Condition
import Tabular.Fragment

/-!
# Clauses of conditions

The text of a condition and its parameters, as it follows `WHERE`.

A list of alternatives is put in parentheses if it has more than one; the empty list is written as
a clause that no row meets, under `<>` as one that every row meets.
-/

namespace Tabular

/-- The clause that every row meets. -/
def alwaysTrue : Fragment := .raw "1=1"

/-- The clause that no row meets. -/
def alwaysFalse : Fragment := .raw "1=0"

namespace Comparison

/-- A column compared with one value. -/
def clause (op : Comparison) (column : String) (v : Value) : Fragment :=
  .raw (column ++ " " ++ op.sign ++ " ") ++ .bind v

/-- What stands between the comparisons with several values: all exclusions have to hold, of
other comparisons one. -/
def separator : Comparison → String
  | notEqual => " AND "
  | _ => " OR "

/-- A column compared with several values. -/
def group (op : Comparison) (column : String) : List Value → Fragment
  | [] => if op = notEqual then alwaysTrue else alwaysFalse
  | [v] => op.clause column v
  | vs => (Fragment.join op.separator (vs.map (op.clause column))).parenthesized

/-- A column compared with an operand. -/
def operandClause (op : Comparison) (column : String) : Operand → Fragment
  | .one v => op.clause column v
  | .many vs => op.group column vs

end Comparison

/-- The clause of a condition on a column; comparisons without any operator have none. -/
def Condition.clause (column : String) : Condition → Fragment
  | equals v => Comparison.equal.clause column v
  | anyOf vs => Comparison.equal.group column vs
  | compare cs =>
    Fragment.join " AND " (cs.toList.map fun (op, operand) => op.operandClause column operand)

/-- The clause of a filter: the clauses of its columns in order. -/
def Filter.clause {κ : Type} [Named κ] (f : Filter κ) : Fragment :=
  let all := Fragment.join " AND "
    (f.columns.entries.map fun (column, c) => c.clause (Named.name column))
  if all.isEmpty then alwaysTrue else all

/-- The clause of a predicate: that of its filter, or those of its alternatives in parentheses. -/
def Predicate.clause {κ : Type} [Named κ] : Predicate κ → Fragment
  | all f => f.clause
  | any [] => alwaysFalse
  | any fs => Fragment.join " OR " (fs.map fun f => f.clause.parenthesized)

end Tabular
