import Tabular.Table

/-!
# Joins

Two tables joined on a pair of columns, each row of the first with the matching rows of the second
or with nulls. Rows of both are one record, in which a column of the second table replaces a column
of the first that has the same name.

- `JoinColumn`: a column of either side, always written with its table.
- `Join.select`, `Join.selectOne`: the joined rows.
-/

namespace Tabular

/-- The name of a column with its table. -/
def qualified (table column : String) : String := table ++ "." ++ column

/-- A column of either side of a join of two tables with these names. -/
inductive JoinColumn (primary secondary : String) where
  | primary (column : String)
  | secondary (column : String)

namespace JoinColumn

variable {primaryTable secondaryTable : String}

/-- The column with the table of its side. -/
def name : JoinColumn primaryTable secondaryTable → String
  | primary column => qualified primaryTable column
  | secondary column => qualified secondaryTable column

instance : Named (JoinColumn primaryTable secondaryTable) := ⟨name⟩

/-- Columns of one written name are the same. -/
instance : BEq (JoinColumn primaryTable secondaryTable) := ⟨fun a b => a.name == b.name⟩

end JoinColumn

/-- Two tables and the columns that are equal in joined rows. -/
structure Join (ρ τ : Type) where
  primary : Table ρ
  secondary : Table τ
  primaryColumn : String
  secondaryColumn : String

namespace Join

variable {ρ τ α σ : Type}

/-- The columns of a join. -/
abbrev Column (j : Join ρ τ) : Type := JoinColumn j.primary.name j.secondary.name

/-- The words for the kind of join. -/
def kind : String := "LEFT JOIN"

/-- What a joined selection has between its first table and its conditions. -/
def clause (j : Join ρ τ) : JoinClause where
  text := kind ++ " " ++ j.secondary.name ++ " ON " ++
    qualified j.primary.name j.primaryColumn ++ " = " ++
    qualified j.secondary.name j.secondaryColumn
  table := j.secondary.name

/-- The joined rows that meet a predicate, read by `decode`. -/
def selectAs (j : Join ρ τ) (engine : Engine σ) (decode : Record → Except Failure α)
    (predicate : Predicate j.Column) (query : Query j.Column) : Action σ (List α) :=
  j.primary.fetch engine (some j.clause) decode predicate query

/-- The joined rows that meet a predicate. -/
def select (j : Join ρ τ) (engine : Engine σ) (predicate : Predicate j.Column)
    (query : Query j.Column) : Action σ (List Record) :=
  j.selectAs engine .ok predicate query

/-- The first joined row that meets a predicate, read by `decode`. -/
def selectOneAs (j : Join ρ τ) (engine : Engine σ) (decode : Record → Except Failure α)
    (predicate : Predicate j.Column) (query : Query j.Column) : Action σ (Option α) :=
  j.primary.fetchOne engine (some j.clause) decode predicate query

/-- The first joined row that meets a predicate. -/
def selectOne (j : Join ρ τ) (engine : Engine σ) (predicate : Predicate j.Column)
    (query : Query j.Column) : Action σ (Option Record) :=
  j.selectOneAs engine .ok predicate query

end Join

end Tabular
