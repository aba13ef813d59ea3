import Tabular.Condition.Clause
import Tabular.Proofs.OrderedMap.Alterations

/-!
# Filters built in steps

A filter after any steps, told by the steps alone.

- `Filter.Step`: a condition set on a column, or comparisons added to it.
- `Filter.steps`, `Filter.built`: the filter after steps.
- `Filter.get?_steps`: **what is asked of a column comes from the steps that name it**, whatever is
  asked of other columns in between.
- `Filter.step_comm`, `Filter.compare_compare`: steps on different columns that are there can be
  taken in either order, and comparisons added one after another are added at once.
- `Filter.built_by_columns`: **a filter is an ordered map that is built column by column**, and
  which steps can be exchanged or put together.
-/

namespace Tabular

namespace Comparisons

theorem merge_apply (older newer : Comparisons) (op : Comparison) :
    older.merge newer op = (newer op).or (older op) :=
  Option.orElse_eq_or ..

theorem none_merge (cs : Comparisons) : none.merge cs = cs := by
  funext op
  rw [merge_apply]
  exact Option.or_none

theorem merge_assoc (as bs cs : Comparisons) : (as.merge bs).merge cs = as.merge (bs.merge cs) := by
  funext op
  simp only [merge_apply, Option.or_assoc]

/-- Merging the comparison by one operator sets its operand. -/
theorem merge_single (cs : Comparisons) (op : Comparison) (operand : Operand) :
    cs.merge (single op operand) = cs.set op operand := by
  funext o
  rw [merge_apply, single]
  unfold set
  by_cases h : o = op
  · rw [if_pos h, if_pos h, Option.some_or]
  · rw [if_neg h, if_neg h]
    exact Option.none_or

/-- Comparisons by different operators can be merged in either order. -/
theorem merge_comm {as bs : Comparisons} (h : ∀ op, as op = Option.none ∨ bs op = Option.none) :
    as.merge bs = bs.merge as := by
  funext op
  rw [merge_apply, merge_apply]
  rcases h op with ha | hb
  · rw [ha, Option.or_none, Option.none_or]
  · rw [hb, Option.or_none, Option.none_or]

end Comparisons

namespace Filter

variable {κ : Type} [Named κ]

/-- A step in which a filter is built. -/
inductive Step (κ : Type) where
  | set (column : κ) (c : Condition)
  | compare (column : κ) (cs : Comparisons)

namespace Step

/-- The column that a step names. -/
def column : Step κ → κ
  | set column _ => column
  | compare column _ => column

/-- What is asked of the column after a step, from what was asked before. -/
def condition : Step κ → Option Condition → Condition
  | set _ c, _ => c
  | compare _ cs, some (.compare older) => .compare (older.merge cs)
  | compare _ cs, _ => .compare cs

end Step

/-- The filter after one more step. -/
def step (f : Filter κ) : Step κ → Filter κ
  | .set column c => f.set column c
  | .compare column cs => f.compare column cs

/-- The filter after steps. -/
def steps (f : Filter κ) (ss : List (Step κ)) : Filter κ := ss.foldl step f

/-- The filter that steps make of the empty one. -/
def built (ss : List (Step κ)) : Filter κ := empty.steps ss

theorem steps_append (f : Filter κ) (ss ts : List (Step κ)) :
    f.steps (ss ++ ts) = (f.steps ss).steps ts :=
  List.foldl_append

/-- A step writes to its column. -/
theorem columns_step (f : Filter κ) (s : Step κ) :
    (f.step s).columns = f.columns.alter s.column s.condition := by
  cases s with
  | set column c => rfl
  | compare column cs =>
    refine congrArg (f.columns.alter column) ?_
    funext old
    cases old with
    | none => rfl
    | some c =>
      cases c with
      | equals v => rfl
      | anyOf vs => rfl
      | compare older => rfl

theorem columns_steps (f : Filter κ) (ss : List (Step κ)) :
    (f.steps ss).columns = f.columns.alters (ss.map fun s => (s.column, s.condition)) := by
  induction ss generalizing f with
  | nil => rfl
  | cons s ss ih =>
    show ((f.step s).steps ss).columns = _
    rw [ih, columns_step]
    rfl

/-! ## Columns -/

/-- **What is asked of a column comes from the steps that name it.** -/
theorem get?_steps (f : Filter κ) (ss : List (Step κ)) (name : String) :
    (f.steps ss).columns.get? name =
      (ss.filter fun s => Named.name s.column = name).foldl (fun old s => some (s.condition old))
        (f.columns.get? name) := by
  rw [columns_steps, OrderedMap.get?_alters, List.filter_map, List.foldl_map]
  rfl

/-- The columns come in the order in which they are first named. -/
theorem names_built (ss : List (Step κ)) :
    (built ss).columns.names = (ss.map fun s => Named.name s.column).eraseDups := by
  unfold built
  rw [columns_steps]
  refine (OrderedMap.names_alters _).trans ?_
  rw [List.map_map]
  rfl

theorem nodup_names_built (ss : List (Step κ)) : (built ss).columns.names.Nodup := by
  unfold built
  rw [columns_steps]
  exact OrderedMap.nodup_names_alters OrderedMap.nodup_names_empty _

/-- One step more asks its column for something else, and nothing else. -/
theorem get?_built_concat (ss : List (Step κ)) (s : Step κ) (name : String) :
    (built (ss ++ [s])).columns.get? name =
      if Named.name s.column = name then some (s.condition ((built ss).columns.get? name))
      else (built ss).columns.get? name := by
  unfold built
  rw [steps_append]
  show (((empty.steps ss).step s).columns).get? name = _
  rw [columns_step, OrderedMap.get?_alter]

/-! ## Steps rearranged -/

/-- Steps on different columns can be taken in either order, if one of the columns is there. -/
theorem step_comm {f : Filter κ} {s t : Step κ}
    (hne : Named.name s.column ≠ Named.name t.column)
    (h : Named.name s.column ∈ f.columns.names ∨ Named.name t.column ∈ f.columns.names) :
    (f.step s).step t = (f.step t).step s := by
  have hcolumns : ((f.step s).step t).columns = ((f.step t).step s).columns := by
    rw [columns_step, columns_step, columns_step, columns_step]
    exact OrderedMap.alter_comm _ _ hne h
  exact congrArg Filter.mk hcolumns

/-- Comparisons that are added one after another can be added at once. -/
theorem compare_compare (f : Filter κ) (column : κ) (cs ds : Comparisons) :
    (f.compare column cs).compare column ds = f.compare column (cs.merge ds) := by
  refine congrArg Filter.mk ((OrderedMap.alter_alter _ _ _ _).trans ?_)
  refine congrArg (f.columns.alter column) ?_
  funext old
  cases old with
  | none => rfl
  | some c =>
    cases c with
    | equals v => rfl
    | anyOf vs => rfl
    | compare older => exact congrArg Condition.compare (Comparisons.merge_assoc older cs ds)

theorem steps_compare (f : Filter κ) (column : κ) (cs : Comparisons) (css : List Comparisons) :
    (f.compare column cs).steps (css.map (.compare column)) =
      f.compare column (css.foldl Comparisons.merge cs) := by
  induction css generalizing cs with
  | nil => rfl
  | cons ds css ih =>
    show ((f.compare column cs).compare column ds).steps (css.map (.compare column)) = _
    rw [compare_compare, ih]
    rfl

/-- Comparisons of one column that are added one after another are added at once. -/
theorem steps_compare_none (f : Filter κ) (column : κ) {css : List Comparisons} (h : css ≠ []) :
    f.steps (css.map (.compare column)) =
      f.steps [.compare column (css.foldl Comparisons.merge .none)] := by
  cases css with
  | nil => exact absurd rfl h
  | cons cs css =>
    show (f.compare column cs).steps (css.map (.compare column)) = _
    rw [steps_compare, List.foldl_cons, Comparisons.none_merge]
    rfl

/-- Steps that come to the same can be put in place of each other anywhere. -/
theorem built_congr {before xs ys : List (Step κ)}
    (h : (built before).steps xs = (built before).steps ys) (after : List (Step κ)) :
    built (before ++ xs ++ after) = built (before ++ ys ++ after) := by
  unfold built at h ⊢
  rw [steps_append, steps_append, h, steps_append, steps_append]

/-! ## Column by column -/

/-- Every way in which a filter is built is a step. -/
structure Stepwise (f : Filter κ) (column : κ) : Prop where
  equals v : f.equals column v = f.step (.set column (.equals v))
  anyOf vs : f.anyOf column vs = f.step (.set column (.anyOf vs))
  set c : f.set column c = f.step (.set column c)
  compare cs : f.compare column cs = f.step (.compare column cs)
  holds op v : f.holds column op v = f.step (.compare column (.single op (.one v)))

/-- What a filter built in steps asks of its columns. -/
structure ByColumns (ss : List (Step κ)) : Prop where
  /-- The columns have different names. -/
  nodup : (built ss).columns.names.Nodup
  /-- They come in the order in which they are first named. -/
  names_eq : (built ss).columns.names = (ss.map fun s => Named.name s.column).eraseDups
  size_eq : (built ss).size = (built ss).columns.names.length
  isEmpty_iff : (built ss).isEmpty = true ↔ (built ss).columns.names = []
  /-- Steps on other columns do not matter. -/
  own_steps name : (built ss).columns.get? name =
    (built (ss.filter fun s => Named.name s.column = name)).columns.get? name
  /-- A condition that is set replaces the one before. -/
  get?_set column c : (built (ss ++ [.set column c])).columns.get? (Named.name column) = some c
  /-- Comparisons are merged into comparisons; of two operands the newer one is kept. -/
  get?_merged column cs older :
    (built ss).columns.get? (Named.name column) = some (.compare older) → ∃ newer,
      (built (ss ++ [.compare column cs])).columns.get? (Named.name column) =
        some (.compare newer) ∧ ∀ op, newer op = (cs op).or (older op)
  /-- Comparisons replace any other condition. -/
  get?_fresh column cs :
    (∀ older, (built ss).columns.get? (Named.name column) ≠ some (.compare older)) →
      (built (ss ++ [.compare column cs])).columns.get? (Named.name column) = some (.compare cs)

/-- Steps between others come to the same clause as other steps in their place. -/
def Exchangeable (before xs ys after : List (Step κ)) : Prop :=
  (Predicate.all (built (before ++ xs ++ after))).clause =
    (Predicate.all (built (before ++ ys ++ after))).clause

/-- Which steps can be exchanged or put together between other steps. -/
structure Rearranged (before after : List (Step κ)) : Prop where
  /-- Steps on two columns that are there. -/
  columns (s t : Step κ) : Named.name s.column ≠ Named.name t.column →
    Named.name s.column ∈ (built before).columns.names →
    Named.name t.column ∈ (built before).columns.names →
    Exchangeable before [s, t] [t, s] after
  /-- Comparisons of one column by different operators. -/
  operators (column : κ) (cs ds : Comparisons) : (∀ op, cs op = none ∨ ds op = none) →
    Exchangeable before [.compare column cs, .compare column ds]
      [.compare column ds, .compare column cs] after
  /-- Comparisons of one column, added one after another or at once. -/
  merged (column : κ) (css : List Comparisons) : css ≠ [] →
    Exchangeable before (css.map (.compare column))
      [.compare column (css.foldl Comparisons.merge .none)] after
  /-- Single comparisons of one column, added one after another or collected first. -/
  collected (column : κ) (os : List (Comparison × Operand)) : os ≠ [] →
    Exchangeable before (os.map fun o => .compare column (.single o.1 o.2))
      [.compare column (os.foldl (fun cs o => cs.set o.1 o.2) .none)] after

theorem byColumns (ss : List (Step κ)) : ByColumns ss where
  nodup := nodup_names_built ss
  names_eq := names_built ss
  size_eq := (List.length_map _).symm
  isEmpty_iff := by
    rw [isEmpty, OrderedMap.isEmpty, List.isEmpty_iff, OrderedMap.names, List.map_eq_nil_iff]
  own_steps name := by
    rw [built, built, get?_steps, get?_steps, List.filter_filter]
    simp only [Bool.and_self]
  get?_set column c := by
    rw [get?_built_concat]
    exact if_pos rfl
  get?_merged column cs older h := by
    refine ⟨older.merge cs, ?_, fun op => Comparisons.merge_apply older cs op⟩
    rw [get?_built_concat, h]
    exact if_pos rfl
  get?_fresh column cs h := by
    rw [get?_built_concat]
    refine (if_pos rfl).trans (congrArg some ?_)
    show Step.condition (.compare column cs) _ = _
    -- only comparisons that are there would be merged with
    match hold : (built ss).columns.get? (Named.name column) with
    | none => rfl
    | some (.equals v) => rfl
    | some (.anyOf vs) => rfl
    | some (.compare older) => exact absurd hold (h older)

theorem rearranged (before after : List (Step κ)) : Rearranged before after := by
  have exchange : ∀ {xs ys : List (Step κ)}, (built before).steps xs = (built before).steps ys →
      Exchangeable before xs ys after :=
    fun h => congrArg (fun f => (Predicate.all f).clause) (built_congr h after)
  refine ⟨fun s t hne hs _ => exchange (step_comm hne (.inl hs)),
    fun column cs ds h => exchange ?operators,
    fun column css h => exchange (steps_compare_none _ column h),
    fun column os h => exchange ?collected⟩
  case operators =>
    show ((built before).compare column cs).compare column ds =
      ((built before).compare column ds).compare column cs
    rw [compare_compare, compare_compare, Comparisons.merge_comm h]
  case collected =>
    have hmap : (os.map fun o => Step.compare column (.single o.1 o.2)) =
        (os.map fun o => Comparisons.single o.1 o.2).map (Step.compare column) := by
      rw [List.map_map]
      rfl
    rw [hmap, steps_compare_none _ _ fun hnil => h (List.map_eq_nil_iff.mp hnil), List.foldl_map]
    simp only [Comparisons.merge_single]

/-- **A filter is an ordered map that is built column by column.** Every way to build one is a step.
The columns are different, in the order in which they are first named, and what is asked of one of
them comes from the steps that name it. So the clause, its text and its parameters, is the same
after two steps on columns that are there are exchanged, or two comparisons of one column by
different operators, or if comparisons of one column are put together. -/
theorem built_by_columns :
    (∀ (f : Filter κ) (column : κ), Stepwise f column) ∧
      (∀ ss : List (Step κ), ByColumns ss) ∧
      ∀ before after : List (Step κ), Rearranged before after :=
  ⟨fun _ _ => ⟨fun _ => rfl, fun _ => rfl, fun _ => rfl, fun _ => rfl, fun _ _ => rfl⟩, byColumns,
    rearranged⟩

/-- Players of one status and above an age. -/
def sampledSteps : List (Step String) :=
  [.set "status" (.equals (.text "active")),
    .compare "age" (.single .greater (.one (.integer 18)))]

theorem built_by_columns_sampled :
    (built sampledSteps).columns.names = ["status", "age"] ∧
    (built sampledSteps).columns.get? "age" =
      some (.compare (.single .greater (.one (.integer 18)))) ∧
    (∃ newer, (built (sampledSteps ++
        [.compare "age" (.single .less (.one (.integer 65)))])).columns.get? "age" =
          some (.compare newer) ∧
      ∀ op, newer op = (Comparisons.single .less (.one (.integer 65)) op).or
        (Comparisons.single .greater (.one (.integer 18)) op)) ∧
    Exchangeable sampledSteps
      [.set "status" (.anyOf []), .compare "age" (.single .less (.one (.integer 65)))]
      [.compare "age" (.single .less (.one (.integer 65))), .set "status" (.anyOf [])] [] ∧
    (∀ op, Comparisons.single .greater (.one (.integer 18)) op = none ∨
      Comparisons.single .less (.one (.integer 65)) op = none) ∧
    Exchangeable []
      [.compare "age" (.single .greater (.one (.integer 18))),
        .compare "age" (.single .less (.one (.integer 65)))]
      [.compare "age" (.single .less (.one (.integer 65))),
        .compare "age" (.single .greater (.one (.integer 18)))] sampledSteps ∧
    Exchangeable []
      [.compare "age" (.single .greater (.one (.integer 18))),
        .compare "age" (.single .less (.one (.integer 65)))]
      [.compare "age" ((Comparisons.none.set .greater (.one (.integer 18))).set .less
        (.one (.integer 65)))] sampledSteps := by
  obtain ⟨-, hcolumns, hrearranged⟩ := built_by_columns (κ := String)
  have hdisjoint : ∀ op, Comparisons.single .greater (.one (.integer 18)) op = none ∨
      Comparisons.single .less (.one (.integer 65)) op = none := by
    intro op
    cases op with
    | greater => exact .inr rfl
    | _ => exact .inl rfl
  exact ⟨rfl, rfl, (hcolumns sampledSteps).get?_merged "age" _ _ rfl,
    (hrearranged sampledSteps []).columns (.set "status" (.anyOf []))
      (.compare "age" (.single .less (.one (.integer 65)))) (by decide) (by decide) (by decide),
    hdisjoint, (hrearranged [] sampledSteps).operators "age" _ _ hdisjoint,
    (hrearranged [] sampledSteps).collected "age"
      [(.greater, .one (.integer 18)), (.less, .one (.integer 65))] (by decide)⟩

end Filter

end Tabular
