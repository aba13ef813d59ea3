import Tabular.Join

/-!
# What descriptors are made of

The names and the scalars that conditions, mutations, rows and queries hold, in the order in which
they were given.

- `Predicate.names`, `Mutation.names`, `Query.names`: the names that may be written in a statement.
- `Predicate.scalars`, `Mutation.scalars`, `Record.scalars`: the values that are bound.
-/

namespace Tabular

/-- The values of an operand. -/
def Operand.scalars : Operand → List Value
  | one v => [v]
  | many vs => vs

/-- The values of a condition: those of comparisons by operator, `>`, `>=`, `<`, `<=`, `<>`, `=`. -/
def Condition.scalars : Condition → List Value
  | equals v => [v]
  | anyOf vs => vs
  | compare cs =>
    [.greater, .greaterOrEqual, .less, .lessOrEqual, .notEqual, .equal].flatMap fun op =>
      ((cs op).map Operand.scalars).getD []

/-- The values of an assignment: those of arithmetic by operator, set, increment, decrement,
multiply, divide. -/
def Assignment.scalars : Assignment → List Value
  | value v => [v]
  | arithmetic ops =>
    [.set, .increment, .decrement, .multiply, .divide].flatMap fun op =>
      ((ops op).map fun operand => [operand.toValue]).getD []

/-- The values of a row in the order of its columns. -/
def Record.scalars (r : Record) : List Value := r.entries.map Prod.snd

section

variable {κ : Type} [Named κ]

/-- The names of the columns that a filter has conditions on. -/
def Filter.names (f : Filter κ) : List String := f.columns.names

/-- The values of a filter, column by column. -/
def Filter.scalars (f : Filter κ) : List Value := f.columns.entries.flatMap fun e => e.2.scalars

/-- The names of the columns that a predicate has conditions on. -/
def Predicate.names : Predicate κ → List String
  | all f => f.names
  | any fs => fs.flatMap Filter.names

/-- The values of a predicate, alternative by alternative. -/
def Predicate.scalars : Predicate κ → List Value
  | all f => f.scalars
  | any fs => fs.flatMap Filter.scalars

/-- The names of the columns that a mutation assigns to. -/
def Mutation.names (m : Mutation κ) : List String := m.columns.names

/-- The values of a mutation, column by column. -/
def Mutation.scalars (m : Mutation κ) : List Value := m.columns.entries.flatMap fun e => e.2.scalars

/-- The names of the columns that a query returns or orders by. -/
def Query.names (q : Query κ) : List String :=
  (q.columns.map Named.name) ++ (q.order.map fun o => Named.name o.column).toList

end

/-- One more alternative brings its values after those of the others. -/
theorem Predicate.scalars_or {κ : Type} (p : Predicate κ) (f : Filter κ) :
    (p.or f).scalars = p.scalars ++ f.scalars := by
  cases p with
  | all g =>
    show [g, f].flatMap Filter.scalars = g.scalars ++ f.scalars
    rw [List.flatMap_cons, List.flatMap_singleton]
  | any fs =>
    show (fs ++ [f]).flatMap Filter.scalars = fs.flatMap Filter.scalars ++ f.scalars
    rw [List.flatMap_append, List.flatMap_singleton]

/-- The names that a join is made of. -/
def Join.names {ρ τ : Type} (j : Join ρ τ) : List String :=
  [j.primary.name, j.secondary.name, j.primaryColumn, j.secondaryColumn]

/-- Values taken from a list of operators, of which some have an operand. -/
theorem flatMap_filterMap_operand {ω α β : Type} (ops : List ω) (operand? : ω → Option α)
    (g : ω × α → List β) :
    (ops.filterMap fun op => (operand? op).map fun a => (op, a)).flatMap g =
      ops.flatMap fun op => ((operand? op).map fun a => g (op, a)).getD [] := by
  induction ops with
  | nil => rfl
  | cons op ops ih =>
    rw [List.flatMap_cons, ← ih]
    cases h : operand? op with
    | none => simp [h]
    | some a => simp [h]

/-- The operators of a column are written in the order in which their values are counted. -/
theorem Condition.scalars_compare (cs : Comparisons) :
    (compare cs).scalars = cs.toList.flatMap fun e => e.2.scalars :=
  (flatMap_filterMap_operand Comparison.all cs fun e => e.2.scalars).symm

theorem Assignment.scalars_arithmetic (ops : Arithmetic) :
    (arithmetic ops).scalars = ops.toList.flatMap fun e => [e.2.toValue] :=
  (flatMap_filterMap_operand UpdateOperator.all ops fun e => [e.2.toValue]).symm

/-- The clauses of the columns of a filter, joined; empty if no column is asked for anything. -/
def Filter.conjoined {κ : Type} [Named κ] (f : Filter κ) : Fragment :=
  Fragment.join " AND " (f.columns.entries.map fun e => e.2.clause (Named.name e.1))

theorem Filter.clause_eq {κ : Type} [Named κ] (f : Filter κ) :
    f.clause = if f.conjoined.isEmpty = true then alwaysTrue else f.conjoined := rfl

/-- The assignments of the columns of a mutation, joined; empty if none assigns anything. -/
def Mutation.assignments {κ : Type} [Named κ] (m : Mutation κ) : Fragment :=
  Fragment.join ", " (m.columns.entries.map fun e => e.2.clause (Named.name e.1))

theorem Mutation.clause_eq {κ : Type} [Named κ] (m : Mutation κ) :
    m.clause =
      if m.assignments.isEmpty = true then .error (.configuration .noAssignment)
      else .ok m.assignments := rfl

end Tabular
