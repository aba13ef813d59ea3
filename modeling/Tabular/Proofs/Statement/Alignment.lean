import Tabular.Proofs.Statement.Contents
import Tabular.Proofs.Statement.Placeholders

/-!
# Statements carry the scalars of their descriptors

Every clause and every statement binds the scalars of what it was made from, in their order, and
leaves its placeholders legible, as long as no name has a mark of a placeholder in it.

- `Predicate.carries_clause`, `Mutation.carries_clause`: the clauses.
- `Statement.carries_select`, `carries_count`, `carries_insert`, `carries_update`,
  `carries_delete`: the statements.
-/

namespace Tabular

open Fragment (Unmarked Separates Carries)

theorem separates_and : Separates " AND " := ⟨by decide, ' ', rfl, rfl⟩

theorem separates_or : Separates " OR " := ⟨by decide, ' ', rfl, rfl⟩

theorem separates_comma : Separates ", " := ⟨by decide, ',', rfl, rfl⟩

/-! ## Conditions -/

theorem Comparison.unmarked_sign (op : Comparison) : Unmarked op.sign := by
  cases op <;> decide

theorem Comparison.carries_clause {column : String} (hc : Unmarked column) (op : Comparison)
    (v : Value) : Carries (op.clause column v) [v] := by
  have htext : Unmarked (column ++ " " ++ op.sign ++ " ") := by
    simp only [Fragment.unmarked_append]
    exact ⟨⟨⟨hc, by decide⟩, op.unmarked_sign⟩, by decide⟩
  exact (Fragment.carries_bind v).raw_append htext

theorem Comparison.separates_separator (op : Comparison) : Separates op.separator := by
  cases op with
  | notEqual => exact separates_and
  | greater => exact separates_or
  | greaterOrEqual => exact separates_or
  | less => exact separates_or
  | lessOrEqual => exact separates_or
  | equal => exact separates_or

theorem carries_alwaysTrue : Carries alwaysTrue [] := Fragment.carries_raw (by decide)

theorem carries_alwaysFalse : Carries alwaysFalse [] := Fragment.carries_raw (by decide)

theorem Comparison.carries_group {column : String} (hc : Unmarked column) (op : Comparison)
    (vs : List Value) : Carries (op.group column vs) vs := by
  match vs with
  | [] =>
    rw [group]
    split
    · exact carries_alwaysTrue
    · exact carries_alwaysFalse
  | [v] => exact op.carries_clause hc v
  | v :: w :: rest =>
    have hjoin := Carries.join op.separates_separator fun (u : Value) (_ : u ∈ v :: w :: rest) =>
      op.carries_clause hc u
    rw [List.flatMap_singleton'] at hjoin
    exact hjoin.parenthesized

theorem Comparison.carries_operandClause {column : String} (hc : Unmarked column)
    (op : Comparison) (operand : Operand) :
    Carries (op.operandClause column operand) operand.scalars := by
  cases operand with
  | one v => exact op.carries_clause hc v
  | many vs => exact op.carries_group hc vs

theorem Condition.carries_clause {column : String} (hc : Unmarked column) (c : Condition) :
    Carries (c.clause column) c.scalars := by
  cases c with
  | equals v => exact Comparison.equal.carries_clause hc v
  | anyOf vs => exact Comparison.equal.carries_group hc vs
  | compare cs =>
    rw [scalars_compare]
    exact Carries.join separates_and fun e _ => e.1.carries_operandClause hc e.2

section

variable {κ : Type} [Named κ]

theorem Filter.carries_clause (f : Filter κ) (hf : ∀ n ∈ f.names, Unmarked n) :
    Carries f.clause f.scalars := by
  have hjoin : Carries f.conjoined f.scalars :=
    Carries.join separates_and fun (e : κ × Condition) he =>
      e.2.carries_clause (hf (Named.name e.1) (List.mem_map.mpr ⟨e, he, rfl⟩))
  rw [f.clause_eq]
  by_cases h : f.conjoined.isEmpty = true
  · -- an empty clause binds nothing, and neither does `1=1`
    have hmap := hjoin.params_eq
    rw [hjoin.wellFormed.params_eq_nil (hjoin.wellFormed.isEmpty_iff.mp h)] at hmap
    rw [if_pos h, List.map_eq_nil_iff.mp hmap.symm]
    exact carries_alwaysTrue
  · rw [if_neg h]
    exact hjoin

theorem Predicate.carries_clause (p : Predicate κ) (hp : ∀ n ∈ p.names, Unmarked n) :
    Carries p.clause p.scalars := by
  match p, hp with
  | all f, hp => exact f.carries_clause hp
  | any [], _ => exact carries_alwaysFalse
  | any (f :: fs), hp =>
    exact Carries.join separates_or fun g hg =>
      (g.carries_clause fun n hn => hp n (List.mem_flatMap.mpr ⟨g, hg, hn⟩)).parenthesized

/-! ## Assignments -/

theorem UpdateOperator.unmarked_sign {op : UpdateOperator} {sign : String}
    (h : op.sign? = some sign) : Unmarked sign := by
  cases op <;> cases h <;> decide

theorem UpdateOperator.carries_clause {column : String} (hc : Unmarked column)
    (op : UpdateOperator) (operand : Number) :
    Carries (op.clause column operand) [operand.toValue] := by
  have hassign : Unmarked (column ++ " = ") := Fragment.unmarked_append.mpr ⟨hc, by decide⟩
  rw [clause]
  cases h : op.sign? with
  | none => exact (Fragment.carries_bind operand.toValue).raw_append hassign
  | some sign =>
    have htext : Unmarked (column ++ " = " ++ column ++ " " ++ sign ++ " ") := by
      simp only [Fragment.unmarked_append]
      exact ⟨⟨⟨⟨⟨hc, by decide⟩, hc⟩, by decide⟩, unmarked_sign h⟩, by decide⟩
    exact (Fragment.carries_bind operand.toValue).raw_append htext

theorem Assignment.carries_clause {column : String} (hc : Unmarked column) (a : Assignment) :
    Carries (a.clause column) a.scalars := by
  cases a with
  | value v =>
    have htext : Unmarked (column ++ " = ") := Fragment.unmarked_append.mpr ⟨hc, by decide⟩
    exact (Fragment.carries_bind v).raw_append htext
  | arithmetic ops =>
    rw [scalars_arithmetic]
    exact Carries.join separates_comma fun e _ => e.1.carries_clause hc e.2

/-- The assignments of a mutation that assigns something. -/
theorem Mutation.carries_clause (m : Mutation κ) (hm : ∀ n ∈ m.names, Unmarked n) {a : Fragment}
    (h : m.clause = .ok a) : Carries a m.scalars := by
  have hjoin : Carries m.assignments m.scalars :=
    Carries.join separates_comma fun (e : κ × Assignment) he =>
      e.2.carries_clause (hm (Named.name e.1) (List.mem_map.mpr ⟨e, he, rfl⟩))
  rw [m.clause_eq] at h
  split at h
  · cases h
  · cases h
    exact hjoin

/-! ## Statements -/

theorem Direction.unmarked_word (d : Direction) : Unmarked d.word := by
  cases d <;> decide

namespace Statement

theorem unmarked_intercalate {separator : String} (hs : Unmarked separator)
    {names : List String} (h : ∀ n ∈ names, Unmarked n) :
    Unmarked (separator.intercalate names) := by
  induction names with
  | nil => rw [String.intercalate_nil]; decide
  | cons n names ih =>
    have hn := h n (by simp)
    have hrest := ih fun m hm => h m (by simp [hm])
    by_cases he : names = []
    · rw [he, String.intercalate_singleton]
      exact hn
    · rw [String.intercalate_cons_of_ne_nil he]
      exact Fragment.unmarked_append.mpr ⟨Fragment.unmarked_append.mpr ⟨hn, hs⟩, hrest⟩

theorem unmarked_toString (n : Nat) : Unmarked (toString n) := by
  constructor
  · intro h
    exact absurd (Fragment.isDigit_of_mem_repr h) (by decide)
  · intro h
    exact absurd (Fragment.isDigit_of_mem_repr h) (by decide)

theorem unmarked_projected {name : String} (h : Unmarked name) : Unmarked (projected name) := by
  rw [projected]
  split
  · simp only [Fragment.unmarked_append]
    exact ⟨⟨⟨h, by decide⟩, h⟩, by decide⟩
  · exact h

theorem unmarked_projection {table : String} (ht : Unmarked table) {join : Option JoinClause}
    (hj : ∀ j, join = some j → Unmarked j.table) {columns : List κ}
    (hc : ∀ c ∈ columns, Unmarked (Named.name c)) :
    Unmarked (projection table join columns) := by
  cases columns with
  | nil =>
    cases join with
    | none => exact Fragment.unmarked_append.mpr ⟨ht, by decide⟩
    | some j =>
      simp only [projection, Fragment.unmarked_append]
      exact ⟨⟨⟨ht, by decide⟩, hj j rfl⟩, by decide⟩
  | cons c columns =>
    refine unmarked_intercalate (by decide) fun n hn => ?_
    obtain ⟨d, hd, rfl⟩ := List.mem_map.mp hn
    exact unmarked_projected (hc d hd)

theorem carries_select {table : String} (ht : Unmarked table) {join : Option JoinClause}
    (hj : ∀ j, join = some j → Unmarked j.text ∧ Unmarked j.table) (p : Predicate κ)
    (hp : ∀ n ∈ p.names, Unmarked n) (q : Query κ) (hq : ∀ n ∈ q.names, Unmarked n) :
    Carries (select table join p q) p.scalars := by
  have hprojection : Unmarked (projection table join q.columns) :=
    unmarked_projection ht (fun j h => (hj j h).2) fun c hc =>
      hq _ (List.mem_append_left _ (List.mem_map.mpr ⟨c, hc, rfl⟩))
  have horder : ∀ o, q.order = some o →
      Separates (" ORDER BY " ++ Named.name o.column ++ " " ++ o.direction.word) := by
    intro o ho
    have hcolumn : Unmarked (Named.name o.column) :=
      hq _ (List.mem_append_right _ (by rw [ho]; exact List.mem_singleton_self _))
    have hword : Unmarked (" " ++ o.direction.word) :=
      Fragment.unmarked_append.mpr ⟨by decide, o.direction.unmarked_word⟩
    rw [String.append_assoc, String.append_assoc]
    exact Separates.append ⟨by decide, ' ', rfl, rfl⟩
      (Fragment.unmarked_append.mpr ⟨hcolumn, hword⟩)
  have hlimit : ∀ n : Nat, Separates (" LIMIT " ++ toString n) := fun n =>
    Separates.append ⟨by decide, ' ', rfl, rfl⟩ (unmarked_toString n)
  unfold select
  rw [← List.append_nil p.scalars]
  refine Carries.append ((p.carries_clause hp).raw_append ?front) (Fragment.carries_raw ?tail)
    ?apart
  case front =>
    simp only [Fragment.unmarked_append]
    refine ⟨⟨⟨⟨⟨by decide, hprojection⟩, by decide⟩, ht⟩, ?_⟩, by decide⟩
    cases join with
    | none => exact Fragment.unmarked_empty
    | some j => exact Fragment.unmarked_append.mpr ⟨by decide, (hj j rfl).1⟩
  case tail =>
    rw [Fragment.unmarked_append]
    constructor
    · cases ho : q.order with
      | none => exact Fragment.unmarked_empty
      | some o => exact (horder o ho).1
    · cases q.limit with
      | none => exact Fragment.unmarked_empty
      | some n => exact (hlimit n).1
  case apart =>
    -- the tail is either empty or begins with a space
    rw [Fragment.symbols_raw, Fragment.chars_append]
    refine Fragment.noDigitHead_append ?_ ?_
    · cases ho : q.order with
      | none => exact Fragment.noDigitHead_empty
      | some o => exact (horder o ho).noDigitHead
    · cases q.limit with
      | none => exact Fragment.noDigitHead_empty
      | some n => exact (hlimit n).noDigitHead

theorem carries_count {table : String} (ht : Unmarked table) (p : Predicate κ)
    (hp : ∀ n ∈ p.names, Unmarked n) : Carries (count table p) p.scalars := by
  have htext : Unmarked ("SELECT COUNT(*) AS count FROM " ++ table ++ " WHERE ") := by
    simp only [Fragment.unmarked_append]
    exact ⟨⟨by decide, ht⟩, by decide⟩
  exact (p.carries_clause hp).raw_append htext

theorem carries_insert {table : String} (ht : Unmarked table) (row : Record)
    (hrow : ∀ n ∈ row.names, Unmarked n) : Carries (insert table row) row.scalars := by
  rw [insert]
  by_cases he : row.isEmpty = true
  · have htext : Unmarked ("INSERT INTO " ++ table ++ " DEFAULT VALUES RETURNING *") := by
      simp only [Fragment.unmarked_append]
      exact ⟨⟨by decide, ht⟩, by decide⟩
    -- a row without columns is written without parameters
    have hscalars : row.scalars = [] := by
      rw [Record.scalars, List.isEmpty_iff.mp he]
      rfl
    rw [if_pos he, hscalars]
    exact Fragment.carries_raw htext
  · have htext : Unmarked ("INSERT INTO " ++ table ++ " (" ++ ", ".intercalate row.names ++
        ") VALUES (") := by
      simp only [Fragment.unmarked_append]
      exact ⟨⟨⟨⟨by decide, ht⟩, by decide⟩, unmarked_intercalate (by decide) hrow⟩, by decide⟩
    have hvalues := Carries.join separates_comma fun (e : String × Value) (_ : e ∈ row.entries) =>
      Fragment.carries_bind e.2
    rw [← List.map_eq_flatMap] at hvalues
    rw [if_neg he]
    exact (hvalues.raw_append htext).append_raw ⟨by decide, ')', rfl, rfl⟩

/-- All operands of the assignments come before those of the conditions. -/
theorem carries_update {table : String} (ht : Unmarked table) (m : Mutation κ)
    (hm : ∀ n ∈ m.names, Unmarked n) {a : Fragment} (ha : m.clause = .ok a) (p : Predicate κ)
    (hp : ∀ n ∈ p.names, Unmarked n) :
    Carries (update table a p) (m.scalars ++ p.scalars) := by
  have htext : Unmarked ("UPDATE " ++ table ++ " SET ") := by
    simp only [Fragment.unmarked_append]
    exact ⟨⟨by decide, ht⟩, by decide⟩
  have hset := (m.carries_clause hm ha).raw_append htext
  exact hset.append_raw_append ⟨by decide, ' ', rfl, rfl⟩ (p.carries_clause hp)

theorem carries_delete {table : String} (ht : Unmarked table) (p : Predicate κ)
    (hp : ∀ n ∈ p.names, Unmarked n) : Carries (delete table p) p.scalars := by
  have htext : Unmarked ("DELETE FROM " ++ table ++ " WHERE ") := by
    simp only [Fragment.unmarked_append]
    exact ⟨⟨by decide, ht⟩, by decide⟩
  exact (p.carries_clause hp).raw_append htext

end Statement

end

end Tabular
