import Mathlib.Data.List.Nodup
import Tabular.Proofs.Accessor.Call
import Tabular.Proofs.Condition.Steps
import Tabular.Proofs.Fragment.Symbols
import Tabular.Proofs.Postgres.Fields

/-!
# Columns of joins

The columns of the two sides of a join stay apart, in the text of a selection, in what is asked of
rows and in the records of the rows.

- `JoinColumn.written`: a column after the table of its side. Columns without a dot are told apart
  by it (`JoinColumn.written_inj`).
- `Join.text`: the text of a joined selection, with every column as it is written.
- `Join.columns_apart`: **no value of a column is lost, except that of a column of the first table
  that has its name in common with one of the second, where all columns are selected.**
-/

namespace Tabular

/-! ## Columns as they are written -/

namespace JoinColumn

variable {primaryTable secondaryTable : String}

deriving instance DecidableEq for JoinColumn

/-- The table of the side of a column. -/
def table : JoinColumn primaryTable secondaryTable → String
  | primary _ => primaryTable
  | secondary _ => secondaryTable

/-- The name of a column in its table. -/
def column : JoinColumn primaryTable secondaryTable → String
  | primary column => column
  | secondary column => column

/-- The column after its table. -/
def written (c : JoinColumn primaryTable secondaryTable) : String := c.table ++ "." ++ c.column

/-- The column has no dot in its name. -/
def Plain (c : JoinColumn primaryTable secondaryTable) : Prop := '.' ∉ c.column.toList

theorem name_eq_written (c : JoinColumn primaryTable secondaryTable) :
    Named.name c = c.written := by
  cases c with
  | primary column => rfl
  | secondary column => rfl

/-- Texts are the same before and after their last mark if they are the same. -/
theorem append_mark_inj {m : Char} {as bs xs ys : List Char} (hx : m ∉ xs) (hy : m ∉ ys)
    (h : as ++ m :: xs = bs ++ m :: ys) : as = bs ∧ xs = ys := by
  rcases List.append_eq_append_iff.mp h with ⟨cs, hbs, hcs⟩ | ⟨cs, has, hcs⟩
  · cases cs with
    | nil => exact ⟨by rw [hbs, List.append_nil], (List.cons.inj hcs).2⟩
    | cons c cs =>
      -- the mark of the second text would be after that of the first
      refine absurd ?_ hx
      rw [(List.cons.inj hcs).2]
      simp
  · cases cs with
    | nil => exact ⟨by rw [has, List.append_nil], (List.cons.inj hcs).2.symm⟩
    | cons c cs =>
      refine absurd ?_ hy
      rw [(List.cons.inj hcs).2]
      simp

/-- Columns without a dot are told apart by how they are written, if the tables have different
names. -/
theorem written_inj (hne : primaryTable ≠ secondaryTable)
    {c d : JoinColumn primaryTable secondaryTable} (hc : c.Plain) (hd : d.Plain) :
    c.written = d.written ↔ c = d := by
  constructor
  · intro h
    have hlists := congrArg String.toList h
    simp only [written, String.toList_append, List.append_assoc] at hlists
    obtain ⟨htables, hcolumns⟩ := append_mark_inj hc hd hlists
    have htable : c.table = d.table := String.toList_inj.mp htables
    have hcolumn : c.column = d.column := String.toList_inj.mp hcolumns
    cases c with
    | primary column =>
      cases d with
      | primary column' => exact congrArg primary hcolumn
      | secondary column' => exact absurd htable hne
    | secondary column =>
      cases d with
      | primary column' => exact absurd htable.symm hne
      | secondary column' => exact congrArg secondary hcolumn
  · rintro rfl
    rfl

theorem nodup_written (hne : primaryTable ≠ secondaryTable)
    {columns : List (JoinColumn primaryTable secondaryTable)} (hplain : ∀ c ∈ columns, c.Plain)
    (h : columns.Nodup) : (columns.map written).Nodup :=
  h.map_on fun c hc d hd hcd => (written_inj hne (hplain c hc) (hplain d hd)).mp hcd

/-- A column is selected under the name that it is written as. -/
theorem projected_name (c : JoinColumn primaryTable secondaryTable) :
    Statement.projected (Named.name c) = c.written ++ " AS \"" ++ c.written ++ "\"" := by
  have hdot : c.written.contains '.' = true := by
    rw [String.contains_char_eq, written]
    simp
  rw [name_eq_written, Statement.projected, if_pos hdot]

end JoinColumn

/-! ## Conditions on other columns -/

section

variable {κ ν : Type}

/-- The filter with the same conditions on renamed columns. -/
def Filter.rename (f : Filter κ) (g : κ → ν) : Filter ν :=
  ⟨⟨f.columns.entries.map fun e => (g e.1, e.2)⟩⟩

/-- The predicate with the same conditions on renamed columns. -/
def Predicate.rename (p : Predicate κ) (g : κ → ν) : Predicate ν :=
  match p with
  | .all f => .all (f.rename g)
  | .any fs => .any (fs.map fun f => f.rename g)

variable [Named κ] [Named ν] {g : κ → ν} (hg : ∀ c, Named.name c = Named.name (g c))

include hg

theorem Filter.clause_rename (f : Filter κ) : (f.rename g).clause = f.clause := by
  have hconjoined : (f.rename g).conjoined = f.conjoined := by
    unfold conjoined rename
    rw [List.map_map]
    refine congrArg (Fragment.join " AND ") (List.map_congr_left fun e _ => ?_)
    exact congrArg e.2.clause (hg e.1).symm
  rw [clause_eq, clause_eq, hconjoined]

/-- Conditions on columns of the same names have the same clause. -/
theorem Predicate.clause_rename (p : Predicate κ) : (p.rename g).clause = p.clause := by
  cases p with
  | all f => exact f.clause_rename hg
  | any fs =>
    cases fs with
    | nil => rfl
    | cons f fs =>
      show Fragment.join " OR " (((f :: fs).map fun f => f.rename g).map fun f =>
        f.clause.parenthesized) = _
      rw [List.map_map]
      refine congrArg (Fragment.join " OR ") (List.map_congr_left fun f _ => ?_)
      exact congrArg Fragment.parenthesized (f.clause_rename hg)

end

/-! ## The text of a selection -/

namespace Join

variable {ρ τ : Type} (j : Join ρ τ)

/-- What is selected: all columns of both tables, or each of some columns under the name that it is
written as. -/
def selected : List j.Column → String
  | [] => j.primary.name ++ ".*, " ++ j.secondary.name ++ ".*"
  | columns => ", ".intercalate
      (columns.map fun c => c.written ++ " AS \"" ++ c.written ++ "\"")

/-- The columns that are equal in joined rows. -/
def on : j.Column × j.Column := (.primary j.primaryColumn, .secondary j.secondaryColumn)

/-- The text of a joined selection. -/
def text (style : Placeholder) (p : Predicate j.Column) (q : Query j.Column) : String :=
  "SELECT " ++ j.selected q.columns ++ " FROM " ++ j.primary.name ++
    " LEFT JOIN " ++ j.secondary.name ++ " ON " ++ j.on.1.written ++ " = " ++ j.on.2.written ++
    " WHERE " ++ (p.rename JoinColumn.written).clause.render style ++
    (match q.order with
      | none => ""
      | some o => " ORDER BY " ++ o.column.written ++ " " ++ o.direction.word) ++
    match q.limit with
    | none => ""
    | some n => " LIMIT " ++ toString n

theorem projection_eq_selected (columns : List j.Column) :
    Statement.projection j.primary.name (some j.clause) columns = j.selected columns := by
  cases columns with
  | nil => rfl
  | cons c columns =>
    unfold Statement.projection selected
    dsimp only
    rw [List.map_congr_left fun d _ => d.projected_name]

/-- In the text of a joined selection every column is written after the table of its side. -/
theorem render_select (style : Placeholder) (p : Predicate j.Column) (q : Query j.Column) :
    (Statement.select j.primary.name (some j.clause) p q).render style = j.text style p q := by
  have hclause : (p.rename JoinColumn.written).clause = p.clause :=
    p.clause_rename JoinColumn.name_eq_written
  have hkind : " LEFT JOIN " = " " ++ kind ++ " " := by decide +kernel
  unfold Statement.select text
  rw [Fragment.render_raw_append_append_raw, hclause, projection_eq_selected, hkind]
  -- what is left is how the pieces are put together
  cases q.order <;> cases q.limit <;>
    simp only [clause, on, JoinColumn.name_eq_written, JoinColumn.written, JoinColumn.table,
      JoinColumn.column, qualified, String.append_assoc]

/-! ## Nothing is lost -/

/-- What is asked of a column after steps that name columns without a dot comes from the steps that
name this column of this side. -/
theorem get?_steps_written {primaryTable secondaryTable : String}
    (hne : primaryTable ≠ secondaryTable) {c : JoinColumn primaryTable secondaryTable}
    (hc : c.Plain) {ss : List (Filter.Step (JoinColumn primaryTable secondaryTable))}
    (hss : ∀ s ∈ ss, s.column.Plain) :
    (Filter.empty.steps ss).columns.get? c.written =
      (ss.filter fun s => s.column = c).foldl (fun old s => some (s.condition old)) none := by
  have hfilter : (ss.filter fun s => Named.name s.column = c.written) =
      ss.filter fun s => s.column = c := by
    refine List.filter_congr fun s hs => ?_
    rw [JoinColumn.name_eq_written, decide_eq_decide]
    exact JoinColumn.written_inj hne (hss s hs) hc
  rw [Filter.get?_steps, hfilter]
  rfl

/-- The record of a row of all columns of two tables. -/
theorem decodeRow_two {ps ss : List String} (hps : ps.Nodup) (hss : ss.Nodup)
    {answer : List Postgres.AnswerColumn} {cells : List (Option Bytes)}
    (hlength : answer.length = cells.length)
    (hnames : answer.map Postgres.AnswerColumn.name = ps ++ ss) {es : List (String × Value)}
    (hes : Postgres.fields answer cells = .ok es) :
    ∃ r, Postgres.decodeRow answer cells = .ok r ∧ r.names = ps ++ ss.filter (· ∉ ps) ∧
      ∀ name, r.get? name =
        ((⟨es.drop ps.length⟩ : Record).get? name).or
          ((⟨es.take ps.length⟩ : Record).get? name) := by
  have hall : (⟨es⟩ : Record).names = ps ++ ss :=
    (Postgres.names_of_fields hlength hes).trans hnames
  have hfirst : (⟨es.take ps.length⟩ : Record).names = ps := by
    have h := congrArg (List.take ps.length) hall
    rwa [List.take_left, OrderedMap.names, ← List.map_take] at h
  have hsecond : (⟨es.drop ps.length⟩ : Record).names = ss := by
    have h := congrArg (List.drop ps.length) hall
    rwa [List.drop_left, OrderedMap.names, ← List.map_drop] at h
  refine ⟨OrderedMap.ofList es, ?_, ?_, fun name => ?_⟩
  · rw [Postgres.decodeRow_eq, hes]
    rfl
  · have h := OrderedMap.names_ofList_append (hfirst.symm ▸ hps) (hsecond.symm ▸ hss)
    rwa [List.take_append_drop, hfirst, hsecond] at h
  · have h := OrderedMap.get?_ofList_append (hfirst.symm ▸ hps) (hsecond.symm ▸ hss) name
    rwa [List.take_append_drop] at h

/-- **No value of a column is lost, except that of a column of the first table that has its name in
common with one of the second, where all columns are selected.** In the text of a joined selection
every column is written after the table of its side. Different columns without a dot in their names
are selected under different names, so that the record of a row has the values of all of them, in
order; and what is asked of one of them is never mixed up with what is asked of another. A row of
all columns has the names of the first table and then those that only the second one has, and each
name has the value of the second table if that has the name. -/
theorem columns_apart (hne : j.primary.name ≠ j.secondary.name) :
    (∀ {α : Type} (decode : Record → Except Failure α) (p : Predicate j.Column)
      (q : Query j.Column) (style : Placeholder),
      (Call.joinAs j decode p q).statements.map (fun a => a.1.render style) =
          [j.text style p q] ∧
        (Call.joinOneAs j decode p q).statements.map (fun a => a.1.render style) =
          [j.text style p q.limited]) ∧
    (∀ columns : List j.Column, columns.Nodup → (∀ c ∈ columns, c.Plain) →
      (columns.map JoinColumn.written).Nodup ∧
        ∀ (answer : List Postgres.AnswerColumn) (cells : List (Option Bytes)),
          answer.length = cells.length →
          answer.map Postgres.AnswerColumn.name = columns.map JoinColumn.written →
          Postgres.decodeRow answer cells = (Postgres.fields answer cells).map OrderedMap.mk ∧
            ∀ es, Postgres.fields answer cells = .ok es →
              (⟨es⟩ : Record).names = columns.map JoinColumn.written) ∧
    (∀ (ss : List (Filter.Step j.Column)) (c : j.Column), c.Plain → (∀ s ∈ ss, s.column.Plain) →
      (Filter.empty.steps ss).columns.get? c.written =
        (ss.filter fun s => s.column = c).foldl (fun old s => some (s.condition old)) none) ∧
    ∀ (ps ss : List String) (answer : List Postgres.AnswerColumn) (cells : List (Option Bytes)),
      ps.Nodup → ss.Nodup → answer.length = cells.length →
      answer.map Postgres.AnswerColumn.name = ps ++ ss →
      ∀ es, Postgres.fields answer cells = .ok es →
        ∃ r, Postgres.decodeRow answer cells = .ok r ∧ r.names = ps ++ ss.filter (· ∉ ps) ∧
          ∀ name, r.get? name =
            ((⟨es.drop ps.length⟩ : Record).get? name).or
              ((⟨es.take ps.length⟩ : Record).get? name) := by
  refine ⟨fun _ p q style => ?text, fun columns hnodup hplain => ?listed,
    fun ss c hc hss => get?_steps_written hne hc hss,
    fun ps ss answer cells hps hss hlength hnames es hes =>
      decodeRow_two hps hss hlength hnames hes⟩
  case text =>
    exact ⟨congrArg (fun text => [text]) (j.render_select style p q),
      congrArg (fun text => [text]) (j.render_select style p q.limited)⟩
  case listed =>
    have hwritten := JoinColumn.nodup_written hne hplain hnodup
    refine ⟨hwritten, ?_⟩
    intro answer cells hlength hnames
    exact ⟨Postgres.decodeRow_of_nodup hlength (hnames ▸ hwritten),
      fun es hes => (Postgres.names_of_fields hlength hes).trans hnames⟩

/-- Owned games with what is known of the games. Games can be hidden on either side. -/
def sampledJoin : Join Record Record := ⟨⟨"owned", {}, .ok⟩, ⟨"games", {}, .ok⟩, "appid", "appid"⟩

theorem columns_apart_sampled :
    sampledJoin.primary.name ≠ sampledJoin.secondary.name ∧
    (Call.joinAs sampledJoin .ok (.all (Filter.empty.equals (.secondary "hidden") (.bool false)))
        { columns := [.primary "hidden", .secondary "hidden"] }).statements.map
          (fun a => a.1.render .numbered) =
        ["SELECT owned.hidden AS \"owned.hidden\", games.hidden AS \"games.hidden\" FROM owned " ++
          "LEFT JOIN games ON owned.appid = games.appid WHERE games.hidden = $1"] ∧
    Postgres.decodeRow [⟨"owned.hidden", .builtin .bool⟩, ⟨"games.hidden", .builtin .bool⟩]
        [some [1], some [0]] =
      .ok ⟨[("owned.hidden", .bool true), ("games.hidden", .bool false)]⟩ ∧
    (Filter.empty.steps [.set (.primary "hidden" : sampledJoin.Column) (.equals (.bool true)),
      .set (.secondary "hidden") (.equals (.bool false))]).columns.get? "owned.hidden" =
        some (.equals (.bool true)) ∧
    ∃ r, Postgres.decodeRow [⟨"hidden", .builtin .bool⟩, ⟨"rated", .builtin .bool⟩,
        ⟨"title", .builtin .text⟩, ⟨"hidden", .builtin .bool⟩]
        [some [1], some [1], none, some [0]] = .ok r ∧
      r.names = ["hidden", "rated", "title"] ∧ r.get? "hidden" = some (.bool false) ∧
      r.get? "rated" = some (.bool true) := by
  have hne : sampledJoin.primary.name ≠ sampledJoin.secondary.name := by decide
  obtain ⟨htext, hlisted, hasked, hall⟩ := sampledJoin.columns_apart hne
  refine ⟨hne, (htext .ok _ _ .numbered).1.trans ?_, ?_, ?_, ?_⟩
  · decide +kernel
  · obtain ⟨-, hrow⟩ := hlisted [.primary "hidden", .secondary "hidden"] (by decide)
      (by simp [JoinColumn.Plain, JoinColumn.column])
    exact (hrow _ _ rfl (by decide +kernel)).1.trans rfl
  · exact hasked [.set (.primary "hidden") (.equals (.bool true)),
      .set (.secondary "hidden") (.equals (.bool false))] (.primary "hidden")
      (by simp [JoinColumn.Plain, JoinColumn.column])
      (by simp [Filter.Step.column, JoinColumn.Plain, JoinColumn.column])
  · obtain ⟨r, hr, hnames, hvalues⟩ := hall ["hidden", "rated"] ["title", "hidden"]
      [⟨"hidden", .builtin .bool⟩, ⟨"rated", .builtin .bool⟩, ⟨"title", .builtin .text⟩,
        ⟨"hidden", .builtin .bool⟩] [some [1], some [1], none, some [0]] (by decide) (by decide)
      rfl rfl _ rfl
    exact ⟨r, hr, hnames, hvalues "hidden", hvalues "rated"⟩

end Join

end Tabular
