import Tabular.Postgres.Row
import Tabular.Proofs.OrderedMap.Extension

/-!
# Fields of rows

The record of a row seen as its fields, put together one after another.

- `Postgres.fields`: the values of the cells under the names of their columns, in order, or the
  failure of the first cell that has none.
- `Postgres.decodeRow_eq`: **the record of a row is made of its fields.**
- `Postgres.decodeRow_of_nodup`: if the columns have different names, the fields are the record.
-/

namespace Tabular

namespace Postgres

/-- The fields of a row, its columns counted from this index on. -/
def fieldsFrom (index : Nat) (columns : List AnswerColumn) (cells : List (Option Bytes)) :
    Except Failure (List (String × Value)) :=
  ((columns.zip cells).zipIdx index).mapM fun ((column, cell), i) => do
    let v ← decodeField i column cell
    return (column.name, v)

/-- The fields of a row. -/
def fields (columns : List AnswerColumn) (cells : List (Option Bytes)) :
    Except Failure (List (String × Value)) :=
  fieldsFrom 0 columns cells

theorem fieldsFrom_cons (index : Nat) (column : AnswerColumn) (columns : List AnswerColumn)
    (cell : Option Bytes) (cells : List (Option Bytes)) :
    fieldsFrom index (column :: columns) (cell :: cells) = do
      let v ← decodeField index column cell
      let es ← fieldsFrom (index + 1) columns cells
      return (column.name, v) :: es := by
  unfold fieldsFrom
  rw [List.zip_cons_cons, List.zipIdx_cons, List.mapM_cons, bind_assoc]
  simp only [pure_bind]

/-- A row is decoded by putting its fields into the record. -/
theorem decodeFrom_eq (record : Record) (index : Nat) (columns : List AnswerColumn)
    (cells : List (Option Bytes)) :
    decodeFrom record index columns cells = (fieldsFrom index columns cells).map record.extend := by
  induction columns generalizing record index cells with
  | nil => rfl
  | cons column columns ih =>
    cases cells with
    | nil => rfl
    | cons cell cells =>
      rw [decodeFrom, fieldsFrom_cons]
      cases decodeField index column cell with
      | error failure => rfl
      | ok v =>
        show decodeFrom (record.insert column.name v) (index + 1) columns cells = _
        rw [ih]
        cases fieldsFrom (index + 1) columns cells with
        | error failure => rfl
        | ok es => rfl

/-- **The record of a row is made of its fields**, and a cell that has no value is the failure. -/
theorem decodeRow_eq (columns : List AnswerColumn) (cells : List (Option Bytes)) :
    decodeRow columns cells = (fields columns cells).map OrderedMap.ofList :=
  decodeFrom_eq .empty 0 columns cells

/-- There is one field for each column, under its name. -/
theorem names_of_fieldsFrom {index : Nat} {columns : List AnswerColumn}
    {cells : List (Option Bytes)} (hlength : columns.length = cells.length)
    {es : List (String × Value)} (h : fieldsFrom index columns cells = .ok es) :
    (⟨es⟩ : Record).names = columns.map AnswerColumn.name := by
  induction columns generalizing index cells es with
  | nil =>
    cases h
    rfl
  | cons column columns ih =>
    cases cells with
    | nil => cases hlength
    | cons cell cells =>
      rw [fieldsFrom_cons] at h
      cases hv : decodeField index column cell with
      | error failure =>
        rw [hv] at h
        cases h
      | ok v =>
        rw [hv] at h
        cases hes : fieldsFrom (index + 1) columns cells with
        | error failure =>
          rw [hes] at h
          cases h
        | ok rest =>
          rw [hes] at h
          cases h
          rw [OrderedMap.names_mk_cons, ih (Nat.succ.inj hlength) hes]
          rfl

theorem names_of_fields {columns : List AnswerColumn} {cells : List (Option Bytes)}
    (hlength : columns.length = cells.length) {es : List (String × Value)}
    (h : fields columns cells = .ok es) :
    (⟨es⟩ : Record).names = columns.map AnswerColumn.name :=
  names_of_fieldsFrom hlength h

/-- The record of a row whose columns have different names is its fields. -/
theorem decodeRow_of_nodup {columns : List AnswerColumn} {cells : List (Option Bytes)}
    (hlength : columns.length = cells.length) (h : (columns.map AnswerColumn.name).Nodup) :
    decodeRow columns cells = (fields columns cells).map OrderedMap.mk := by
  rw [decodeRow_eq]
  cases hes : fields columns cells with
  | error failure => rfl
  | ok es =>
    have hnames := names_of_fields hlength hes
    exact congrArg Except.ok (OrderedMap.ofList_of_nodup (hnames ▸ h))

end Postgres

end Tabular
