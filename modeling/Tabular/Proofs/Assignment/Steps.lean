import Tabular.Proofs.Accessor.Misuse
import Tabular.Proofs.Fragment.Joins
import Tabular.Proofs.OrderedMap.Alterations

/-!
# Mutations built in steps

A mutation after any steps, told by the steps alone, and what is written for it.

- `Assignment.written`, `Mutation.written`: the assignments as texts with their operands, one for a
  new value and one for each operator that is there.
- `Mutation.render_assignments`, `Mutation.params_assignments`: what is written for a mutation are
  these texts with commas between them, and its parameters are their operands.
- `Mutation.Step`: an assignment in place of any other, or operators added to a column.
- `Mutation.steps`, `Mutation.built`: the mutation after steps.
- `Mutation.described`: the assignments that steps describe.
- `Mutation.built_as_described`: **a mutation comes to the assignments that its steps describe**,
  and it is refused exactly if none of them does anything.
-/

namespace Tabular

/-! ## Assignments as they are written -/

/-- The assignment of one operator to a column as it is written. -/
def UpdateOperator.text (column : String) : UpdateOperator → String
  | set => column ++ " = ?"
  | increment => column ++ " = " ++ column ++ " + ?"
  | decrement => column ++ " = " ++ column ++ " - ?"
  | multiply => column ++ " = " ++ column ++ " * ?"
  | divide => column ++ " = " ++ column ++ " / ?"

theorem UpdateOperator.render_clause (op : UpdateOperator) (column : String) (operand : Number) :
    (op.clause column operand).render .question = op.text column := by
  rw [← String.toList_inj, Fragment.toList_render_question]
  cases op with
  | set => simp [clause, sign?, text, Fragment.Symbol.asked]
  | increment => simp [clause, sign?, text, Fragment.Symbol.asked]
  | decrement => simp [clause, sign?, text, Fragment.Symbol.asked]
  | multiply => simp [clause, sign?, text, Fragment.Symbol.asked]
  | divide => simp [clause, sign?, text, Fragment.Symbol.asked]

theorem UpdateOperator.params_clause (op : UpdateOperator) (column : String) (operand : Number) :
    (op.clause column operand).params = [operand.toValue.encoded] := by
  unfold clause
  cases op.sign? with
  | none => rfl
  | some sign => rfl

namespace Assignment

/-- The assignments of a column as texts with their operands, arithmetic by operator, set,
increment, decrement, multiply, divide. -/
def written (column : String) : Assignment → List (String × Value)
  | value v => [(column ++ " = ?", v)]
  | arithmetic ops =>
    [.set, .increment, .decrement, .multiply, .divide].filterMap fun op =>
      (ops op).map fun operand => (op.text column, operand.toValue)

/-- The fragments that the assignments of a column are joined from. -/
def pieces (column : String) : Assignment → List Fragment
  | value v => [.raw (column ++ " = ") ++ .bind v]
  | arithmetic ops => ops.toList.map fun o => o.1.clause column o.2

theorem solid_pieces (column : String) (a : Assignment) :
    ∀ p ∈ a.pieces column, p.WellFormed ∧ p.symbols ≠ [] := by
  cases a with
  | value v =>
    intro p hp
    rw [List.mem_singleton.mp hp]
    exact ⟨(value v).wellFormed_clause column, by simp⟩
  | arithmetic ops =>
    intro p hp
    obtain ⟨⟨op, operand⟩, -, rfl⟩ := List.mem_map.mp hp
    exact ⟨op.wellFormed_clause column operand, op.symbols_clause_ne_nil column operand⟩

theorem wellFormed_pieces (column : String) (a : Assignment) :
    ∀ p ∈ a.pieces column, p.WellFormed :=
  fun p hp => (a.solid_pieces column p hp).1

theorem clause_eq_join (column : String) (a : Assignment) :
    a.clause column = Fragment.join ", " (a.pieces column) := by
  cases a with
  | arithmetic ops => rfl
  | value v =>
    exact (Fragment.join_singleton ", " ((value v).wellFormed_clause column)).symm

/-- No assignment is written as nothing. -/
theorem ne_empty_of_mem_written {column : String} {a : Assignment} {w : String × Value}
    (h : w ∈ a.written column) : w.1 ≠ "" := by
  cases a with
  | value v =>
    rw [List.mem_singleton.mp h]
    simp
  | arithmetic ops =>
    obtain ⟨op, -, hw⟩ := List.mem_filterMap.mp h
    obtain ⟨operand, -, rfl⟩ := Option.map_eq_some_iff.mp hw
    cases op with
    | set => simp [UpdateOperator.text]
    | increment => simp [UpdateOperator.text]
    | decrement => simp [UpdateOperator.text]
    | multiply => simp [UpdateOperator.text]
    | divide => simp [UpdateOperator.text]

theorem written_arithmetic (column : String) (ops : Arithmetic) :
    (arithmetic ops).written column =
      ops.toList.map fun o => (o.1.text column, o.2.toValue) := by
  rw [Arithmetic.toList, List.map_filterMap]
  simp only [Option.map_map]
  rfl

theorem map_render_pieces (column : String) (a : Assignment) :
    (a.pieces column).map (fun p => p.render .question) = (a.written column).map Prod.fst := by
  cases a with
  | value v =>
    have hone : (Fragment.raw (column ++ " = ") ++ Fragment.bind v).render .question =
        column ++ " = ?" := by
      rw [← String.toList_inj, Fragment.toList_render_question]
      simp [Fragment.Symbol.asked]
    exact congrArg (fun text => [text]) hone
  | arithmetic ops =>
    rw [written_arithmetic, pieces, List.map_map, List.map_map]
    exact List.map_congr_left fun o _ => o.1.render_clause column o.2

theorem params_clause (column : String) (a : Assignment) :
    (a.clause column).params = (a.written column).map fun w => w.2.encoded := by
  cases a with
  | value v => rfl
  | arithmetic ops =>
    rw [clause_eq_join, Fragment.params_join _ (wellFormed_pieces column _), written_arithmetic,
      pieces, List.flatMap_map, List.map_map]
    simp only [UpdateOperator.params_clause]
    exact List.map_eq_flatMap.symm

end Assignment

/-- At most one operand for each operator: of two operands the newer one is kept. -/
theorem Arithmetic.merge_apply (older newer : Arithmetic) (op : UpdateOperator) :
    older.merge newer op = (newer op).or (older op) :=
  Option.orElse_eq_or ..

namespace Mutation

variable {κ : Type} [Named κ]

/-- The assignments of a mutation as texts with their operands, column by column. -/
def written (m : Mutation κ) : List (String × Value) :=
  m.columns.entries.flatMap fun e => e.2.written (Named.name e.1)

/-- The fragments that the assignments of a mutation are joined from. -/
def pieces (m : Mutation κ) : List Fragment :=
  m.columns.entries.flatMap fun e => e.2.pieces (Named.name e.1)

/-- The joins of the columns are one join. -/
theorem assignments_eq_join (m : Mutation κ) :
    m.assignments = Fragment.join ", " m.pieces :=
  Fragment.join_flatMap ", " (fun e : κ × Assignment => e.2.clause_eq_join (Named.name e.1))
    (fun e => e.2.wellFormed_pieces (Named.name e.1)) m.columns.entries

theorem solid_pieces (m : Mutation κ) : ∀ p ∈ m.pieces, p.WellFormed ∧ p.symbols ≠ [] := by
  intro p hp
  obtain ⟨e, -, hp⟩ := List.mem_flatMap.mp hp
  exact e.2.solid_pieces _ p hp

/-- What is written for a mutation, where placeholders are question marks. -/
theorem render_assignments (m : Mutation κ) :
    m.assignments.render .question = ", ".intercalate (m.written.map Prod.fst) := by
  rw [assignments_eq_join, Fragment.render_join ", " fun p hp => (m.solid_pieces p hp).1,
    Fragment.solid_eq_self m.solid_pieces, pieces, written, List.map_flatMap, List.map_flatMap]
  simp only [Assignment.map_render_pieces]

theorem params_assignments (m : Mutation κ) :
    m.assignments.params = m.written.map fun w => w.2.encoded := by
  have hwell : ∀ a ∈ m.columns.entries.map (fun e => e.2.clause (Named.name e.1)),
      a.WellFormed := by
    intro a ha
    obtain ⟨e, -, rfl⟩ := List.mem_map.mp ha
    exact e.2.wellFormed_clause _
  rw [assignments, Fragment.params_join ", " hwell, List.flatMap_map, written, List.map_flatMap]
  simp only [Assignment.params_clause]

theorem eq_assignments {m : Mutation κ} {a : Fragment} (h : m.clause = .ok a) :
    a = m.assignments := by
  rw [clause_eq] at h
  by_cases hempty : m.assignments.isEmpty = true
  · rw [if_pos hempty] at h
    cases h
  · rw [if_neg hempty] at h
    exact (Except.ok.inj h).symm

/-! ## Steps -/

/-- A step in which a mutation is built. -/
inductive Step (κ : Type) where
  | assign (column : κ) (a : Assignment)
  | apply (column : κ) (ops : Arithmetic)

namespace Step

/-- The column that a step names. -/
def column : Step κ → κ
  | assign column _ => column
  | apply column _ => column

/-- The assignment of the column after a step, from the one before. -/
def assignment : Step κ → Option Assignment → Assignment
  | assign _ a, _ => a
  | apply _ ops, some (.arithmetic older) => .arithmetic (older.merge ops)
  | apply _ ops, _ => .arithmetic ops

end Step

/-- The mutation after one more step. -/
def step (m : Mutation κ) : Step κ → Mutation κ
  | .assign column a => m.assign column a
  | .apply column ops => m.apply column ops

/-- The mutation after steps. -/
def steps (m : Mutation κ) (ss : List (Step κ)) : Mutation κ := ss.foldl step m

/-- The mutation that steps make of the empty one. -/
def built (ss : List (Step κ)) : Mutation κ := empty.steps ss

/-- A step writes to its column. -/
theorem columns_step (m : Mutation κ) (s : Step κ) :
    (m.step s).columns = m.columns.alter s.column s.assignment := by
  cases s with
  | assign column a => rfl
  | apply column ops =>
    refine congrArg (m.columns.alter column) ?_
    funext old
    cases old with
    | none => rfl
    | some a =>
      cases a with
      | value v => rfl
      | arithmetic older => rfl

theorem columns_steps (m : Mutation κ) (ss : List (Step κ)) :
    (m.steps ss).columns = m.columns.alters (ss.map fun s => (s.column, s.assignment)) := by
  induction ss generalizing m with
  | nil => rfl
  | cons s ss ih =>
    show ((m.step s).steps ss).columns = _
    rw [ih, columns_step]
    rfl

/-- What becomes of a column by the steps that name it. -/
def held (ss : List (Step κ)) (name : String) : Option Assignment :=
  (ss.filter fun s => Named.name s.column = name).foldl (fun old s => some (s.assignment old)) none

/-- One step more changes the assignment of its column, and nothing else. -/
theorem held_concat (ss : List (Step κ)) (s : Step κ) (name : String) :
    held (ss ++ [s]) name =
      if Named.name s.column = name then some (s.assignment (held ss name)) else held ss name := by
  unfold held
  rw [List.filter_append, List.foldl_append]
  by_cases h : Named.name s.column = name
  · simp [h]
  · simp [h]

theorem get?_built (ss : List (Step κ)) (name : String) :
    (built ss).columns.get? name = held ss name := by
  unfold built held
  rw [columns_steps, OrderedMap.get?_alters, List.filter_map, List.foldl_map]
  rfl

/-- The columns come in the order in which they are first named. -/
theorem names_built (ss : List (Step κ)) :
    (built ss).names = (ss.map fun s => Named.name s.column).eraseDups := by
  unfold built names
  rw [columns_steps]
  refine (OrderedMap.names_alters _).trans ?_
  rw [List.map_map]
  rfl

theorem nodup_names_built (ss : List (Step κ)) : (built ss).names.Nodup := by
  unfold built names
  rw [columns_steps]
  exact OrderedMap.nodup_names_alters OrderedMap.nodup_names_empty _

theorem isEmpty_built_iff {ss : List (Step κ)} : (built ss).isEmpty = true ↔ ss = [] := by
  rw [isEmpty, OrderedMap.isEmpty, List.isEmpty_iff]
  constructor
  · intro h
    cases ss with
    | nil => rfl
    | cons s ss =>
      have hnames := names_built (s :: ss)
      rw [names, OrderedMap.names, h, List.map_cons, List.eraseDups_cons] at hnames
      cases hnames
  · intro h
    rw [h]
    rfl

/-! ## What steps describe -/

/-- The assignments that steps describe, as texts with their operands, in the order in which the
columns are first named. -/
def described (ss : List (Step κ)) : List (String × Value) :=
  (ss.map fun s => Named.name s.column).eraseDups.flatMap fun name =>
    (held ss name).elim [] (Assignment.written name)

theorem written_built (ss : List (Step κ)) : (built ss).written = described ss := by
  rw [described, ← names_built, names, OrderedMap.names, List.flatMap_map, written]
  refine List.flatMap_congr fun e he => ?_
  rw [← get?_built, OrderedMap.get?_of_mem (nodup_names_built ss) he, Option.elim_some]

theorem ne_empty_of_mem_described {ss : List (Step κ)} {w : String × Value}
    (h : w ∈ described ss) : w.1 ≠ "" := by
  obtain ⟨name, -, hw⟩ := List.mem_flatMap.mp h
  cases hheld : held ss name with
  | none =>
    rw [hheld] at hw
    cases hw
  | some a =>
    rw [hheld] at hw
    exact Assignment.ne_empty_of_mem_written hw

/-- The mutation is refused exactly if no column has a new value or an operator. -/
theorem clause_built_error_iff {ss : List (Step κ)} {failure : Failure} :
    (built ss).clause = .error failure ↔
      (∀ name a, held ss name = some a → a.Idle) ∧ failure = .configuration .noAssignment := by
  rw [clause_error_iff]
  refine and_congr_left fun _ => ⟨fun h name a ha => ?_, fun h e he => ?_⟩
  · rw [← get?_built] at ha
    obtain ⟨e, he, -, rfl⟩ := OrderedMap.exists_mem_of_get? ha
    exact h e he
  · refine h (Named.name e.1) e.2 ?_
    rw [← get?_built]
    exact OrderedMap.get?_of_mem (nodup_names_built ss) he

/-- Steps without operators leave every column without operators. -/
theorem idle_of_apply_none {ss : List (Step κ)} (h : ∀ s ∈ ss, ∃ column, s = .apply column .none)
    {name : String} {a : Assignment} (ha : held ss name = some a) : a.Idle := by
  induction ss using List.reverseRecOn generalizing a with
  | nil => cases ha
  | append_singleton ss s ih =>
    have ih := fun b => ih (a := b) fun t ht => h t (List.mem_append_left [s] ht)
    obtain ⟨column, rfl⟩ := h s (List.mem_append_right ss List.mem_cons_self)
    rw [held_concat] at ha
    by_cases hname : Named.name column = name
    · rw [Step.column, if_pos hname, Option.some.injEq] at ha
      subst ha
      match hold : held ss name with
      | none => exact fun op => rfl
      | some (.value v) => exact fun op => rfl
      | some (.arithmetic older) => exact ih _ hold
    · rw [Step.column, if_neg hname] at ha
      exact ih a ha

/-- Every way in which a mutation is built is a step. -/
structure Stepwise (m : Mutation κ) (column : κ) : Prop where
  assign a : m.assign column a = m.step (.assign column a)
  set v : m.set column v = m.step (.assign column (.value v))
  apply ops : m.apply column ops = m.step (.apply column ops)
  operate op operand : m.operate column op operand = m.step (.apply column (.single op operand))

/-- A mutation built in steps comes to the assignments that the steps describe. -/
structure AsDescribed (ss : List (Step κ)) : Prop where
  /-- The columns have different names. -/
  nodup : (built ss).names.Nodup
  /-- They come in the order in which they are first named. -/
  names_eq : (built ss).names = (ss.map fun s => Named.name s.column).eraseDups
  isEmpty_iff : (built ss).isEmpty = true ↔ ss = []
  /-- What becomes of a column comes from the steps that name it. -/
  get?_eq name : (built ss).columns.get? name = held ss name
  /-- An assignment replaces the one before. -/
  held_assign column a : held (ss ++ [.assign column a]) (Named.name column) = some a
  /-- Operators are merged into operators; of two operands the newer one is kept. -/
  held_merged column ops older : held ss (Named.name column) = some (.arithmetic older) →
    ∃ newer, held (ss ++ [.apply column ops]) (Named.name column) = some (.arithmetic newer) ∧
      ∀ op, newer op = (ops op).or (older op)
  /-- Operators replace a new value. -/
  held_fresh column ops : (∀ older, held ss (Named.name column) ≠ some (.arithmetic older)) →
    held (ss ++ [.apply column ops]) (Named.name column) = some (.arithmetic ops)
  /-- No assignment is written as nothing. -/
  solid w : w ∈ described ss → w.1 ≠ ""
  /-- The text lists the assignments, with commas between them. -/
  text a : (built ss).clause = .ok a →
    a.render .question = ", ".intercalate ((described ss).map Prod.fst)
  /-- The parameters are the operands, each in the form it is kept in. -/
  params a : (built ss).clause = .ok a → a.params = (described ss).map fun w => w.2.encoded
  refused failure : (built ss).clause = .error failure ↔
    (∀ name a, held ss name = some a → a.Idle) ∧ failure = .configuration .noAssignment
  /-- Columns are named, but nothing is assigned to them. -/
  without_operators : (∀ s ∈ ss, ∃ column, s = .apply column .none) →
    (built ss).clause = .error (.configuration .noAssignment)

theorem asDescribed (ss : List (Step κ)) : AsDescribed ss where
  nodup := nodup_names_built ss
  names_eq := names_built ss
  isEmpty_iff := isEmpty_built_iff
  get?_eq name := get?_built ss name
  held_assign column a := by
    rw [held_concat]
    exact if_pos rfl
  held_merged column ops older h := by
    refine ⟨older.merge ops, ?_, fun op => Arithmetic.merge_apply older ops op⟩
    rw [held_concat, h]
    exact if_pos rfl
  held_fresh column ops h := by
    rw [held_concat]
    refine (if_pos rfl).trans (congrArg some ?_)
    show Step.assignment (.apply column ops) _ = _
    -- only operators that are there would be merged with
    match hold : held ss (Named.name column) with
    | none => rfl
    | some (.value v) => rfl
    | some (.arithmetic older) => exact absurd hold (h older)
  solid _ h := ne_empty_of_mem_described h
  text a h := by rw [eq_assignments h, render_assignments, written_built]
  params a h := by rw [eq_assignments h, params_assignments, written_built]
  refused failure := clause_built_error_iff
  without_operators h := clause_built_error_iff.mpr ⟨fun _ _ => idle_of_apply_none h, rfl⟩

/-- **A mutation comes to the assignments that its steps describe.** Every way to build one is a
step. The columns are different, in the order in which they are first named, and each has what the
steps that name it come to. The text lists new values and operators column by column, and nothing
for a column without operators; its parameters are their operands. A mutation is refused exactly if
it has neither a new value nor an operator, even where it has columns. -/
theorem built_as_described :
    (∀ (m : Mutation κ) (column : κ), Stepwise m column) ∧ ∀ ss : List (Step κ), AsDescribed ss :=
  ⟨fun _ _ => ⟨fun _ => rfl, fun _ => rfl, fun _ => rfl, fun _ _ => rfl⟩, asDescribed⟩

/-- A new name, a column without operators, and two operators on one column. -/
def sampledSteps : List (Step String) :=
  [.assign "name" (.value (.text "bob")), .apply "skipped" .none,
    .apply "hp" (.single .multiply (.integer 2)), .apply "hp" (.single .increment (.integer 5))]

theorem built_as_described_sampled :
    (built sampledSteps).names = ["name", "skipped", "hp"] ∧
    (∃ a, (built sampledSteps).clause = .ok a ∧
      a.render .question = "name = ?, hp = hp + ?, hp = hp * ?" ∧
      a.params = [.text "bob", .integer 5, .integer 2]) ∧
    (∃ newer, held (sampledSteps ++ [.apply "hp" (.single .increment (.integer 7))]) "hp" =
        some (.arithmetic newer) ∧ newer .increment = some (.integer 7) ∧
      newer .multiply = some (.integer 2)) ∧
    held (sampledSteps ++ [.apply "name" (.single .set (.integer 1))]) "name" =
      some (.arithmetic (.single .set (.integer 1))) ∧
    (built [Step.apply "skipped" .none]).isEmpty = false ∧
    (built [Step.apply "skipped" .none]).clause = .error (.configuration .noAssignment) := by
  obtain ⟨-, hdescribed⟩ := built_as_described (κ := String)
  have hsampled := hdescribed sampledSteps
  obtain ⟨newer, hheld, hnewer⟩ :=
    hsampled.held_merged "hp" (.single .increment (.integer 7)) _ rfl
  refine ⟨hsampled.names_eq.trans rfl, ⟨_, rfl, hsampled.text _ rfl, hsampled.params _ rfl⟩,
    ⟨newer, hheld, hnewer _, hnewer _⟩, hsampled.held_fresh "name" _ ?_, rfl,
    (hdescribed [.apply "skipped" .none]).without_operators ?_⟩
  · rintro older ⟨⟩
  · intro s hs
    exact ⟨"skipped", List.mem_singleton.mp hs⟩

end Mutation

end Tabular
