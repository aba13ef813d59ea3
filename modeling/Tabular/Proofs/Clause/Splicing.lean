import Tabular.Proofs.Assignment.Steps

/-!
# Clauses spliced into clauses

The clause of a column may be a join itself: comparisons by several operators, or arithmetic by
several operators. It stands in the clause of a filter or of a mutation without parentheses, since
the separator is the same and joining is flat.

- `Condition.pieces`, `Filter.pieces`: the comparisons that a clause is joined from, one for each
  operator (`Assignment.pieces` and `Mutation.pieces` are those of assignments).
- `Filter.clause_eq_join`, `Mutation.clause_eq_join`: a clause is one join of all its pieces.
- `Fragment.joined_in_groups`: **it does not matter in which groups fragments are joined**, and a separator
  stands only between fragments that are not empty.
-/

namespace Tabular

/-! ## Conditions -/

namespace Comparison

theorem solid_clause (op : Comparison) (column : String) (v : Value) :
    (op.clause column v).WellFormed ∧ (op.clause column v).symbols ≠ [] :=
  ⟨(Fragment.wellFormed_raw _).append (Fragment.wellFormed_bind v), by simp [clause]⟩

theorem solid_group (op : Comparison) (column : String) (vs : List Value) :
    (op.group column vs).WellFormed ∧ (op.group column vs).symbols ≠ [] := by
  match vs with
  | [] =>
    rw [group]
    split
    · exact ⟨Fragment.wellFormed_raw _, by decide⟩
    · exact ⟨Fragment.wellFormed_raw _, by decide⟩
  | [v] => exact op.solid_clause column v
  | v :: w :: rest =>
    have hwell : ∀ a ∈ (v :: w :: rest).map (op.clause column), a.WellFormed := by
      intro a ha
      obtain ⟨u, -, rfl⟩ := List.mem_map.mp ha
      exact (op.solid_clause column u).1
    -- the parentheses are there, whatever is between them
    exact ⟨(Fragment.wellFormed_join op.separator hwell).parenthesized, by simp [group]⟩

theorem solid_operandClause (op : Comparison) (column : String) (operand : Operand) :
    (op.operandClause column operand).WellFormed ∧
      (op.operandClause column operand).symbols ≠ [] := by
  cases operand with
  | one v => exact op.solid_clause column v
  | many vs => exact op.solid_group column vs

end Comparison

namespace Condition

/-- The fragments that the clause of a condition is joined from: one for each operator of
comparisons, and one for any other condition. -/
def pieces (column : String) : Condition → List Fragment
  | equals v => [Comparison.equal.clause column v]
  | anyOf vs => [Comparison.equal.group column vs]
  | compare cs => cs.toList.map fun o => o.1.operandClause column o.2

theorem solid_pieces (column : String) (c : Condition) :
    ∀ p ∈ c.pieces column, p.WellFormed ∧ p.symbols ≠ [] := by
  cases c with
  | equals v => exact List.forall_mem_singleton.mpr (Comparison.equal.solid_clause column v)
  | anyOf vs => exact List.forall_mem_singleton.mpr (Comparison.equal.solid_group column vs)
  | compare cs =>
    intro p hp
    obtain ⟨o, -, rfl⟩ := List.mem_map.mp hp
    exact o.1.solid_operandClause column o.2

theorem clause_eq_join (column : String) (c : Condition) :
    c.clause column = Fragment.join " AND " (c.pieces column) := by
  cases c with
  | equals v =>
    exact (Fragment.join_singleton " AND " (Comparison.equal.solid_clause column v).1).symm
  | anyOf vs =>
    exact (Fragment.join_singleton " AND " (Comparison.equal.solid_group column vs).1).symm
  | compare cs => rfl

end Condition

section

variable {κ : Type} [Named κ]

namespace Filter

/-- The fragments that the clause of a filter is joined from, column by column. -/
def pieces (f : Filter κ) : List Fragment :=
  f.columns.entries.flatMap fun e => e.2.pieces (Named.name e.1)

theorem solid_pieces (f : Filter κ) : ∀ p ∈ f.pieces, p.WellFormed ∧ p.symbols ≠ [] := by
  intro p hp
  obtain ⟨e, -, hp⟩ := List.mem_flatMap.mp hp
  exact e.2.solid_pieces _ p hp

theorem conjoined_eq_join (f : Filter κ) : f.conjoined = Fragment.join " AND " f.pieces :=
  Fragment.join_flatMap " AND " (fun e : κ × Condition => e.2.clause_eq_join (Named.name e.1))
    (fun e p hp => (e.2.solid_pieces (Named.name e.1) p hp).1) f.columns.entries

/-- The clause of a filter is one join of its comparisons. -/
theorem clause_eq_join (f : Filter κ) :
    f.clause =
      if f.pieces.isEmpty then alwaysTrue else Fragment.join " AND " f.pieces := by
  rw [f.clause_eq, f.conjoined_eq_join, Fragment.isEmpty_join_of_solid " AND " f.solid_pieces]

end Filter

/-- The clause of a mutation is one join of its assignments. -/
theorem Mutation.clause_eq_join (m : Mutation κ) :
    m.clause =
      if m.pieces.isEmpty then .error (.configuration .noAssignment)
      else .ok (Fragment.join ", " m.pieces) := by
  rw [m.clause_eq, m.assignments_eq_join, Fragment.isEmpty_join_of_solid ", " m.solid_pieces]

end

/-! ## Groups of fragments -/

namespace Fragment

/-- **Joining is flat.** Fragments joined in groups, whatever they are and whichever of them or of
the groups are empty, are the fragments joined at once. A separator stands between fragments that
are not empty and nowhere else, the parameters are those of all fragments in order, and the join is
empty exactly if every fragment is. So the joins that the columns of a filter or of a mutation come
to are spliced into the clause of the whole as if there were none. -/
theorem joined_in_groups {κ : Type} [Named κ] (separator : String) {ass : List (List Fragment)}
    (h : ∀ as ∈ ass, ∀ a ∈ as, a.Built) :
    join separator (ass.map (join separator)) = join separator ass.flatten ∧
      Joined separator ass.flatten ∧
      (∀ f : Filter κ, f.clause =
        if f.pieces.isEmpty then alwaysTrue else join " AND " f.pieces) ∧
      ∀ m : Mutation κ, m.clause =
        if m.pieces.isEmpty then .error (.configuration .noAssignment)
        else .ok (join ", " m.pieces) := by
  have hwell : ∀ as ∈ ass, ∀ a ∈ as, a.WellFormed := fun as has a ha => (h as has a ha).wellFormed
  exact ⟨join_flatten separator hwell, joined separator (wellFormed_flatten hwell),
    Filter.clause_eq_join, Mutation.clause_eq_join⟩

/-- Groups of comparisons, with empty fragments and empty groups at both ends and in between. -/
def sampledGroups : List (List Fragment) :=
  [[empty], [Comparison.equal.clause "a" (.integer 1), empty, Comparison.less.clause "b" .null],
    [], [join " AND " [empty], Comparison.greater.clause "c" (.text "x")], [empty, empty]]

theorem built_sampledGroups : ∀ as ∈ sampledGroups, ∀ a ∈ as, a.Built := by
  have hclause : ∀ (op : Comparison) (column : String) (v : Value), (op.clause column v).Built :=
    fun _ _ v => .bind v (.raw _)
  have hempty : (join " AND " [empty]).Built :=
    .join " AND " (List.forall_mem_singleton.mpr .empty)
  simp only [sampledGroups, List.forall_mem_cons]
  exact ⟨⟨.empty, nofun⟩, ⟨hclause _ _ _, .empty, hclause _ _ _, nofun⟩, nofun,
    ⟨hempty, hclause _ _ _, nofun⟩, ⟨.empty, .empty, nofun⟩, nofun⟩

/-- Two comparisons of one column, none of the next, and a value for the last. -/
def sampledFilter : Filter String :=
  (((Filter.empty.holds "age" .greater (.integer 18)).holds "age" .less (.integer 65)).compare
    "skipped" .none).equals "name" (.text "bob")

/-- A new value, no operators, and two operators on one column. -/
def sampledMutation : Mutation String :=
  (((Mutation.empty.set "name" (.text "bob")).apply "skipped" .none).operate "hp" .multiply
    (.integer 2)).operate "hp" .increment (.integer 5)

theorem joined_in_groups_sampled :
    (∀ as ∈ sampledGroups, ∀ a ∈ as, a.Built) ∧
    join " AND " (sampledGroups.map (join " AND ")) = join " AND " sampledGroups.flatten ∧
    (join " AND " sampledGroups.flatten).render .question = "a = ? AND b < ? AND c > ?" ∧
    (join " AND " sampledGroups.flatten).params = [.integer 1, .null, .text "x"] ∧
    ¬ (join " AND " sampledGroups.flatten).isEmpty = true ∧
    sampledFilter.clause = join " AND " [Comparison.greater.clause "age" (.integer 18),
      Comparison.less.clause "age" (.integer 65), Comparison.equal.clause "name" (.text "bob")] ∧
    sampledMutation.clause = .ok (join ", " [raw "name = " ++ bind (.text "bob"),
      UpdateOperator.increment.clause "hp" (.integer 5),
      UpdateOperator.multiply.clause "hp" (.integer 2)]) := by
  obtain ⟨hflat, hjoined, hfilter, hmutation⟩ :=
    joined_in_groups (κ := String) " AND " built_sampledGroups
  refine ⟨built_sampledGroups, hflat, hjoined.text.trans ?_, hjoined.params.trans ?_, ?_,
    (hfilter sampledFilter).trans ?_, (hmutation sampledMutation).trans ?_⟩
  · decide
  · rfl
  · rw [hjoined.isEmpty_iff]
    decide
  · rfl
  · rfl

end Fragment

end Tabular
