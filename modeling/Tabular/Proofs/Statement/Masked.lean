import Tabular.Proofs.Statement.Contents

/-!
# Masked descriptors

What is left of conditions, mutations, rows and fragments when one and the same scalar stands in
place of all their scalars: their columns, operators and lengths.

- `Fragment.masked`, `Predicate.masked`, `Mutation.masked`, `Record.masked`: the masks. Descriptors
  of one shape are those that have equal masks.
- `Statement.masked_select`, `masked_count`, `masked_insert`, `masked_update`, `masked_delete`:
  **masking commutes with putting statements together**, so that no statement depends on a scalar
  in more than its parameters.
-/

namespace Tabular

/-- The scalar that stands in place of all others. -/
def Value.mask : Value := .integer 0

/-! ## Fragments -/

namespace Fragment

/-- The fragment with every parameter masked. -/
def masked (a : Fragment) : Fragment := ⟨a.parts, a.params.map fun _ => .mask⟩

theorem parts_eq_of_masked {a b : Fragment} (h : a.masked = b.masked) : a.parts = b.parts :=
  congrArg (fun c => c.parts) h

theorem length_params_eq_of_masked {a b : Fragment} (h : a.masked = b.masked) :
    a.params.length = b.params.length := by
  have hparams := congrArg (fun c => c.params.length) h
  simpa [masked] using hparams

theorem render_eq_of_masked {a b : Fragment} (h : a.masked = b.masked) (style : Placeholder) :
    a.render style = b.render style := by
  rw [render, render, parts_eq_of_masked h]

@[simp] theorem isEmpty_masked (a : Fragment) : a.masked.isEmpty = a.isEmpty := rfl

@[simp] theorem masked_raw (text : String) : (raw text).masked = raw text := rfl

@[simp] theorem masked_bind (v : Value) : (bind v).masked = bind .mask := rfl

@[simp] theorem masked_append (a b : Fragment) : (a ++ b).masked = a.masked ++ b.masked := by
  show Fragment.mk _ ((a.params ++ b.params).map _) = Fragment.mk _ _
  rw [List.map_append]
  rfl

@[simp] theorem masked_parenthesized (a : Fragment) :
    a.parenthesized.masked = a.masked.parenthesized := by
  simp [parenthesized]

/-- Which fragments are left out of a join, and where separators stand, does not depend on
parameters. -/
theorem masked_foldl_join (separator : String) (out : Fragment) (as : List Fragment) :
    (as.foldl (fun out a => if out.isEmpty then a else out ++ raw separator ++ a) out).masked =
      (as.map masked).foldl (fun out a => if out.isEmpty then a else out ++ raw separator ++ a)
        out.masked := by
  induction as generalizing out with
  | nil => rfl
  | cons a as ih =>
    rw [List.foldl_cons, ih, List.map_cons, List.foldl_cons, isEmpty_masked]
    by_cases h : out.isEmpty = true
    · rw [if_pos h, if_pos h]
    · rw [if_neg h, if_neg h, masked_append, masked_append, masked_raw]

@[simp] theorem masked_join (separator : String) (as : List Fragment) :
    (join separator as).masked = join separator (as.map masked) := by
  have hfilter : (as.map masked).filter (fun a => !a.isEmpty) =
      (as.filter fun a => !a.isEmpty).map masked := by
    rw [List.filter_map]
    rfl
  rw [join, join, masked_foldl_join, hfilter]
  rfl

/-- Masking a join of what is made from elements masks the elements. -/
theorem masked_join_map {α : Type} (separator : String) {f : α → Fragment} {mask : α → α}
    (h : ∀ x, (f x).masked = f (mask x)) (xs : List α) :
    (join separator (xs.map f)).masked = join separator ((xs.map mask).map f) := by
  rw [masked_join, List.map_map, List.map_map]
  exact congrArg (fun k => join separator (xs.map k)) (funext h)

end Fragment

/-! ## Descriptors -/

/-- The operand with its values masked. -/
def Operand.masked : Operand → Operand
  | one _ => one .mask
  | many vs => many (vs.map fun _ => .mask)

/-- The condition with its values masked. -/
def Condition.masked : Condition → Condition
  | equals _ => equals .mask
  | anyOf vs => anyOf (vs.map fun _ => .mask)
  | compare cs => compare fun op => (cs op).map Operand.masked

/-- The filter with its values masked. -/
def Filter.masked {κ : Type} (f : Filter κ) : Filter κ := ⟨f.columns.map Condition.masked⟩

/-- The predicate with its values masked. -/
def Predicate.masked {κ : Type} : Predicate κ → Predicate κ
  | all f => all f.masked
  | any fs => any (fs.map Filter.masked)

/-- The assignment with its operands masked. -/
def Assignment.masked : Assignment → Assignment
  | value _ => value .mask
  | arithmetic ops => arithmetic fun op => (ops op).map fun _ => .integer 0

/-- The mutation with its operands masked. -/
def Mutation.masked {κ : Type} (m : Mutation κ) : Mutation κ := ⟨m.columns.map Assignment.masked⟩

/-- The row with its values masked. -/
def Record.masked (row : Record) : Record := row.map fun _ => .mask

/-! ## Clauses -/

theorem Comparison.masked_clause (op : Comparison) (column : String) (v : Value) :
    (op.clause column v).masked = op.clause column .mask := by
  simp [clause]

theorem Comparison.masked_group (op : Comparison) (column : String) (vs : List Value) :
    (op.group column vs).masked = op.group column (vs.map fun _ => .mask) := by
  match vs with
  | [] =>
    rw [group, List.map_nil, group]
    split
    · rfl
    · rfl
  | [v] => exact op.masked_clause column v
  | v :: w :: rest =>
    have hjoin := Fragment.masked_join_map op.separator (op.masked_clause column) (v :: w :: rest)
    show (Fragment.join _ ((v :: w :: rest).map (op.clause column))).parenthesized.masked = _
    rw [Fragment.masked_parenthesized, hjoin]
    rfl

theorem Comparison.masked_operandClause (op : Comparison) (column : String)
    (operand : Operand) :
    (op.operandClause column operand).masked = op.operandClause column operand.masked := by
  cases operand with
  | one v => exact op.masked_clause column v
  | many vs => exact op.masked_group column vs

theorem Comparisons.toList_masked (cs : Comparisons) :
    toList (fun op => (cs op).map Operand.masked) =
      cs.toList.map fun e => (e.1, e.2.masked) := by
  unfold toList
  rw [List.map_filterMap]
  simp only [Option.map_map]
  rfl

theorem Condition.masked_clause (column : String) (c : Condition) :
    (c.clause column).masked = c.masked.clause column := by
  cases c with
  | equals v => exact Comparison.equal.masked_clause column v
  | anyOf vs => exact Comparison.equal.masked_group column vs
  | compare cs =>
    show _ = Fragment.join " AND " ((Comparisons.toList _).map _)
    rw [Comparisons.toList_masked]
    exact Fragment.masked_join_map " AND "
      (fun e : Comparison × Operand => e.1.masked_operandClause column e.2) cs.toList

section

variable {κ : Type} [Named κ]

theorem Filter.masked_conjoined (f : Filter κ) : f.conjoined.masked = f.masked.conjoined :=
  Fragment.masked_join_map " AND "
    (fun e : κ × Condition => e.2.masked_clause (Named.name e.1)) f.columns.entries

theorem Filter.masked_clause (f : Filter κ) : f.clause.masked = f.masked.clause := by
  rw [f.clause_eq, f.masked.clause_eq, ← f.masked_conjoined, Fragment.isEmpty_masked]
  by_cases h : f.conjoined.isEmpty = true
  · rw [if_pos h, if_pos h]
    rfl
  · rw [if_neg h, if_neg h]

theorem Predicate.masked_clause (p : Predicate κ) : p.clause.masked = p.masked.clause := by
  match p with
  | all f => exact f.masked_clause
  | any [] => rfl
  | any (f :: fs) =>
    have hparenthesized : ∀ g : Filter κ,
        g.clause.parenthesized.masked = g.masked.clause.parenthesized := by
      intro g
      rw [Fragment.masked_parenthesized, g.masked_clause]
    exact Fragment.masked_join_map " OR " hparenthesized (f :: fs)

theorem UpdateOperator.masked_clause (op : UpdateOperator) (column : String)
    (operand : Number) :
    (op.clause column operand).masked = op.clause column (.integer 0) := by
  cases op <;> rfl

theorem Arithmetic.toList_masked (ops : Arithmetic) :
    toList (fun op => (ops op).map fun _ => .integer 0) =
      ops.toList.map fun e => (e.1, .integer 0) := by
  unfold toList
  rw [List.map_filterMap]
  simp only [Option.map_map]
  rfl

theorem Assignment.masked_clause (column : String) (a : Assignment) :
    (a.clause column).masked = a.masked.clause column := by
  cases a with
  | value v => rfl
  | arithmetic ops =>
    show _ = Fragment.join ", " ((Arithmetic.toList _).map _)
    rw [Arithmetic.toList_masked]
    exact Fragment.masked_join_map ", "
      (fun e : UpdateOperator × Number => e.1.masked_clause column e.2) ops.toList

theorem Mutation.masked_assignments (m : Mutation κ) :
    m.assignments.masked = m.masked.assignments :=
  Fragment.masked_join_map ", "
    (fun e : κ × Assignment => e.2.masked_clause (Named.name e.1)) m.columns.entries

theorem Mutation.masked_clause (m : Mutation κ) :
    m.clause.map Fragment.masked = m.masked.clause := by
  rw [m.clause_eq, m.masked.clause_eq, ← m.masked_assignments, Fragment.isEmpty_masked]
  by_cases h : m.assignments.isEmpty = true
  · rw [if_pos h, if_pos h]
    rfl
  · rw [if_neg h, if_neg h]
    rfl

/-! ## Statements -/

namespace Statement

theorem masked_select (table : String) (join : Option JoinClause) (p : Predicate κ)
    (q : Query κ) :
    (select table join p q).masked = select table join p.masked q := by
  unfold select
  dsimp only
  rw [Fragment.masked_append, Fragment.masked_append, p.masked_clause, Fragment.masked_raw,
    Fragment.masked_raw]

theorem masked_count (table : String) (p : Predicate κ) :
    (count table p).masked = count table p.masked := by
  rw [count, count, Fragment.masked_append, Fragment.masked_raw, p.masked_clause]

theorem names_masked (row : Record) : row.masked.names = row.names := by
  show (row.entries.map _).map _ = row.entries.map _
  rw [List.map_map]
  rfl

theorem masked_insert (table : String) (row : Record) :
    (insert table row).masked = insert table row.masked := by
  have hempty : row.masked.isEmpty = row.isEmpty := by
    show (row.entries.map _).isEmpty = row.entries.isEmpty
    rw [List.isEmpty_map]
  have hvalues : (Fragment.join ", " (row.entries.map fun e => .bind e.2)).masked =
      Fragment.join ", " (row.masked.entries.map fun e => .bind e.2) :=
    Fragment.masked_join_map ", " (fun e : String × Value => Fragment.masked_bind e.2) row.entries
  rw [insert, insert, hempty, names_masked]
  by_cases h : row.isEmpty = true
  · rw [if_pos h, if_pos h, Fragment.masked_raw]
  · rw [if_neg h, if_neg h]
    dsimp only
    rw [Fragment.masked_append, Fragment.masked_append, Fragment.masked_raw, Fragment.masked_raw,
      hvalues]

theorem masked_update (table : String) (a : Fragment) (p : Predicate κ) :
    (update table a p).masked = update table a.masked p.masked := by
  rw [update, update, ← p.masked_clause]
  simp only [Fragment.masked_append, Fragment.masked_raw]

theorem masked_delete (table : String) (p : Predicate κ) :
    (delete table p).masked = delete table p.masked := by
  rw [delete, delete, Fragment.masked_append, Fragment.masked_raw, p.masked_clause]

end Statement

end

end Tabular
