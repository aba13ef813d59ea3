import Tabular.Proofs.Clause.Grammar
import Tabular.Proofs.Fragment.Symbols
import Tabular.Proofs.Statement.Contents

/-!
# Clauses mean what their conditions say

The text of a predicate is read by the grammar of conditions, and what the store reads in it is
what the predicate says.

- `Predicate.meaning`: what a predicate asks of a row, by its structure alone. One more alternative
  is asked for besides what the predicate asks for (`Predicate.meaning_or`).
- `Clause.Parses`: symbols and parameters that have a parse tree with a given meaning. Every way of
  building clauses keeps to it: `Parses.glue` at the joints, `Parses.paren` around groups.
- `Clause.Term.join`: joined fragments, of which empty ones ask nothing.
- `Predicate.clause_meaning`: the clause of a predicate has exactly one parse tree, and that tree
  takes all parameters and comes to the meaning of the predicate, in three-valued logic.
-/

namespace Tabular

/-! ## What conditions ask -/

/-- What the comparisons of the columns of a row with values come to. A row together with a
reading of the comparison of two scalars gives such a function. -/
abbrev Reading := String → Comparison → Value → Truth

/-- Several values are asked for all at once under `<>` and one of them under any other operator. -/
def Operand.meaning (holds : Reading) (column : String) (op : Comparison) : Operand → Truth
  | one v => holds column op v.encoded
  | many vs =>
    let each := vs.map fun v => holds column op v.encoded
    if op = .notEqual then .all each else .any each

/-- What a condition asks of a column. -/
def Condition.meaning (holds : Reading) (column : String) : Condition → Truth
  | equals v => holds column .equal v.encoded
  | anyOf vs => .any (vs.map fun v => holds column .equal v.encoded)
  | compare cs =>
    .all (Comparison.all.map fun op =>
      match cs op with
      | some operand => operand.meaning holds column op
      | none => .holds)

/-- A filter asks for the conditions of all its columns. -/
def Filter.meaning {κ : Type} [Named κ] (holds : Reading) (f : Filter κ) : Truth :=
  .all (f.columns.entries.map fun (column, c) => c.meaning holds (Named.name column))

/-- A predicate asks for its filter, or for at least one of its alternatives. -/
def Predicate.meaning {κ : Type} [Named κ] (holds : Reading) : Predicate κ → Truth
  | all f => f.meaning holds
  | any fs => .any (fs.map fun f => f.meaning holds)

/-- Of two lists one holds if one of the first or one of the second does. -/
theorem Truth.any_append (ts us : List Truth) : any (ts ++ us) = (any ts).or (any us) := by
  induction ts with
  | nil =>
    show any us = fails.or (any us)
    cases any us <;> rfl
  | cons t ts ih =>
    show t.or (any (ts ++ us)) = (t.or (any ts)).or (any us)
    rw [ih, or_assoc]

/-- A predicate with one more alternative asks for the predicate or for that alternative. -/
theorem Predicate.meaning_or {κ : Type} [Named κ] (holds : Reading) (p : Predicate κ)
    (f : Filter κ) : (p.or f).meaning holds = (p.meaning holds).or (f.meaning holds) := by
  have hlast : Truth.any [f.meaning holds] = f.meaning holds := Truth.or_fails _
  cases p with
  | all g =>
    show (g.meaning holds).or (Truth.any [f.meaning holds]) = _
    rw [hlast]
    rfl
  | any fs =>
    show Truth.any ((fs ++ [f]).map fun f => f.meaning holds) = _
    rw [List.map_append, List.map_singleton, Truth.any_append, hlast]
    rfl

theorem Filter.meaning_or {κ : Type} [Named κ] (holds : Reading) (f g : Filter κ) :
    (f.or g).meaning holds = (f.meaning holds).or (g.meaning holds) :=
  (Predicate.all f).meaning_or holds g

namespace Clause

open Fragment (chars Symbol)

/-! ## Joining parse trees -/

/-- The words that join conditions. -/
inductive Connective where
  | and
  | or

namespace Connective

/-- The text between two conditions. -/
def separator : Connective → String
  | and => " AND "
  | or => " OR "

/-- The rank of what is joined. -/
def rank : Connective → Rank
  | and => .conjunction
  | or => .expression

/-- What two conditions come to together. -/
def apply : Connective → Truth → Truth → Truth
  | and => .and
  | or => .or

/-- What no condition at all comes to. -/
def unit : Connective → Truth
  | and => .holds
  | or => .fails

/-- What a list of conditions comes to. -/
def fold (c : Connective) (ts : List Truth) : Truth := ts.foldr c.apply c.unit

theorem apply_unit (c : Connective) (t : Truth) : c.apply t c.unit = t := by
  cases c with
  | and => exact Truth.and_holds t
  | or => exact Truth.or_fails t

theorem unit_apply (c : Connective) (t : Truth) : c.apply c.unit t = t := by
  cases c <;> cases t <;> rfl

end Connective

/-- One conjunction and then another. -/
def Tree.glueAnd : Tree .conjunction → Tree .conjunction → Tree .conjunction
  | .last a, t => .and a t
  | .and a b, t => .and a (b.glueAnd t)

/-- One expression and then another. -/
def Tree.glueOr : Tree .expression → Tree .expression → Tree .expression
  | .only a, t => .or a t
  | .or a b, t => .or a (b.glueOr t)

theorem Tree.text_glueAnd (a b : Tree .conjunction) :
    (a.glueAnd b).text = a.text ++ (" AND ".toList ++ b.text) := by
  match a with
  | .last a => rw [glueAnd, text, text]
  | .and a c =>
    rw [glueAnd, text, text, text_glueAnd c b]
    simp only [List.append_assoc]

theorem Tree.text_glueOr (a b : Tree .expression) :
    (a.glueOr b).text = a.text ++ (" OR ".toList ++ b.text) := by
  match a with
  | .only a => rw [glueOr, text, text]
  | .or a c =>
    rw [glueOr, text, text, text_glueOr c b]
    simp only [List.append_assoc]

theorem Tree.eval_glueAnd (holds : Reading) (a b : Tree .conjunction) (vs : List Value) :
    (a.glueAnd b).eval holds vs = (do
      let (x, vs) ← a.eval holds vs
      let (y, vs) ← b.eval holds vs
      return (x.and y, vs)) := by
  match a with
  | .last a => rw [glueAnd, eval, eval]
  | .and a c =>
    rw [glueAnd, eval, eval]
    cases ha : a.eval holds vs with
    | none => rfl
    | some p =>
      have ih := eval_glueAnd holds c b p.2
      simp only [Option.bind_eq_bind, Option.bind_some, ih, Option.bind_assoc,
        Option.pure_def, Truth.and_assoc]

theorem Tree.eval_glueOr (holds : Reading) (a b : Tree .expression) (vs : List Value) :
    (a.glueOr b).eval holds vs = (do
      let (x, vs) ← a.eval holds vs
      let (y, vs) ← b.eval holds vs
      return (x.or y, vs)) := by
  match a with
  | .only a => rw [glueOr, eval, eval]
  | .or a c =>
    rw [glueOr, eval, eval]
    cases ha : a.eval holds vs with
    | none => rfl
    | some p =>
      have ih := eval_glueOr holds c b p.2
      simp only [Option.bind_eq_bind, Option.bind_some, ih, Option.bind_assoc,
        Option.pure_def, Truth.or_assoc]

/-- One tree and then another, joined by a connective. -/
def Connective.glue : (c : Connective) → Tree c.rank → Tree c.rank → Tree c.rank
  | and => Tree.glueAnd
  | or => Tree.glueOr

theorem Connective.text_glue (c : Connective) (a b : Tree c.rank) :
    (c.glue a b).text = a.text ++ (c.separator.toList ++ b.text) :=
  match c, a, b with
  | and, a, b => Tree.text_glueAnd a b
  | or, a, b => Tree.text_glueOr a b

theorem Connective.eval_glue (c : Connective) (holds : Reading) (a b : Tree c.rank)
    (vs : List Value) :
    (c.glue a b).eval holds vs = (do
      let (x, vs) ← a.eval holds vs
      let (y, vs) ← b.eval holds vs
      return (c.apply x y, vs)) :=
  match c, a, b with
  | and, a, b => Tree.eval_glueAnd holds a b vs
  | or, a, b => Tree.eval_glueOr holds a b vs

/-! ## Symbols with a parse tree -/

/-- The symbols, with question marks for placeholders, have a parse tree of this rank which takes
exactly these parameters and comes to `m`, whatever the row and the reading of comparisons. -/
def Parses (r : Rank) (s : List Symbol) (ps : List Value) (m : Reading → Truth) : Prop :=
  ∃ t : Tree r, t.text = s.map Symbol.asked ∧
    ∀ holds vs, t.eval holds (ps ++ vs) = some (m holds, vs)

theorem Parses.last {s : List Symbol} {ps : List Value} {m : Reading → Truth}
    (h : Parses .atom s ps m) : Parses .conjunction s ps m := by
  obtain ⟨t, htext, heval⟩ := h
  refine ⟨.last t, ?_, ?_⟩
  · rw [Tree.text, htext]
  · intro holds vs
    rw [Tree.eval, heval]

theorem Parses.only {s : List Symbol} {ps : List Value} {m : Reading → Truth}
    (h : Parses .conjunction s ps m) : Parses .expression s ps m := by
  obtain ⟨t, htext, heval⟩ := h
  refine ⟨.only t, ?_, ?_⟩
  · rw [Tree.text, htext]
  · intro holds vs
    rw [Tree.eval, heval]

theorem Parses.paren {a : Fragment} {m : Reading → Truth}
    (h : Parses .expression a.symbols a.params m) :
    Parses .atom a.parenthesized.symbols a.parenthesized.params m := by
  obtain ⟨t, htext, heval⟩ := h
  refine ⟨.group t, ?_, ?_⟩
  · simp [Tree.text, htext, Symbol.asked]
  · intro holds vs
    rw [Tree.eval, Fragment.params_parenthesized, heval]

/-- What parses at the rank of a connective parses when joined by it. -/
theorem Parses.glue (c : Connective) {s s' : List Symbol} {ps ps' : List Value}
    {m m' : Reading → Truth} (h : Parses c.rank s ps m) (h' : Parses c.rank s' ps' m') :
    Parses c.rank (s ++ chars c.separator ++ s') (ps ++ ps')
      (fun holds => c.apply (m holds) (m' holds)) := by
  obtain ⟨t, htext, heval⟩ := h
  obtain ⟨t', htext', heval'⟩ := h'
  refine ⟨c.glue t t', ?_, ?_⟩
  · simp [c.text_glue, htext, htext']
  · intro holds vs
    rw [c.eval_glue, List.append_assoc, heval]
    simp [heval']

/-- A fragment between connectives: it parses, or it is empty and asks nothing. -/
structure Term (c : Connective) (a : Fragment) (m : Reading → Truth) : Prop where
  wellFormed : a.WellFormed
  parses : a.symbols ≠ [] → Parses c.rank a.symbols a.params m
  empty : a.symbols = [] → ∀ holds, m holds = c.unit

theorem Term.wellFormed_of_mem_map {α : Type} {c : Connective} {f : α → Fragment}
    {m : α → Reading → Truth} {xs : List α} (h : ∀ x ∈ xs, Term c (f x) (m x)) :
    ∀ a ∈ xs.map f, a.WellFormed := by
  intro a ha
  obtain ⟨x, hx, rfl⟩ := List.mem_map.mp ha
  exact (h x hx).wellFormed

/-- Terms joined by a connective are a term: the empty ones are left out, the others are glued one
after another. By induction on the list; a separator stands only where there is something on both
sides of it. -/
theorem Term.join {α : Type} (c : Connective) {f : α → Fragment} {m : α → Reading → Truth}
    {xs : List α} (h : ∀ x ∈ xs, Term c (f x) (m x)) :
    Term c (Fragment.join c.separator (xs.map f)) (fun holds => c.fold (xs.map (m · holds))) := by
  induction xs with
  | nil => exact ⟨Fragment.wellFormed_empty, fun hne => absurd rfl hne, fun _ _ => rfl⟩
  | cons x xs ih =>
    have hx := h x (by simp)
    have hrest := ih fun y hy => h y (by simp [hy])
    have hw : ∀ a ∈ f x :: xs.map f, a.WellFormed := Term.wellFormed_of_mem_map h
    have hsymbols := Fragment.symbols_join_cons c.separator hw
    have hparams := Fragment.params_join_cons c.separator hw
    have hfold : ∀ holds, c.fold ((x :: xs).map (m · holds)) =
        c.apply (m x holds) (c.fold (xs.map (m · holds))) := fun _ => rfl
    rw [List.map_cons]
    refine ⟨Fragment.wellFormed_join c.separator hw, fun hne => ?_, fun he holds => ?_⟩
    · simp only [hfold, hparams]
      by_cases hnil : (f x).symbols = []
      · -- the first one asks nothing and leaves no trace
        rw [if_pos hnil] at hsymbols
        rw [hsymbols] at hne ⊢
        simp only [hx.empty hnil, c.unit_apply, hx.wellFormed.params_eq_nil hnil,
          List.nil_append]
        exact hrest.parses hne
      · rw [if_neg hnil] at hsymbols
        by_cases hrnil : (Fragment.join c.separator (xs.map f)).symbols = []
        · -- all the others ask nothing, and no separator is written
          rw [if_pos hrnil] at hsymbols
          rw [hsymbols]
          simp only [hrest.empty hrnil, c.apply_unit, hrest.wellFormed.params_eq_nil hrnil,
            List.append_nil]
          exact hx.parses hnil
        · rw [if_neg hrnil] at hsymbols
          rw [hsymbols]
          exact (hx.parses hnil).glue c (hrest.parses hrnil)
    · have hnil : (f x).symbols = [] :=
        (Fragment.symbols_join_eq_nil_iff c.separator hw).mp he _ (by simp)
      rw [hsymbols, if_pos hnil] at he
      rw [hfold, hx.empty hnil, hrest.empty he, c.apply_unit]

/-! ## The clauses of conditions -/

theorem Tree.text_ne_nil {r : Rank} (t : Tree r) : t.text ≠ [] := by
  induction t with
  | always => simp [text]
  | never => simp [text]
  | group e _ => simp [text]
  | compare column op => simp [text]
  | last a ih => exact ih
  | and a b iha _ => simp [text, iha]
  | only a ih => exact ih
  | or a b iha _ => simp [text, iha]

/-- A fragment that is a clause of this rank and means `m`. -/
structure Means (r : Rank) (a : Fragment) (m : Reading → Truth) : Prop where
  wellFormed : a.WellFormed
  parses : Parses r a.symbols a.params m

theorem Means.symbols_ne_nil {r : Rank} {a : Fragment} {m : Reading → Truth}
    (h : Means r a m) : a.symbols ≠ [] := by
  intro hnil
  obtain ⟨t, htext, -⟩ := h.parses
  rw [hnil] at htext
  exact t.text_ne_nil htext

theorem Means.term {c : Connective} {a : Fragment} {m : Reading → Truth}
    (h : Means c.rank a m) : Term c a m :=
  ⟨h.wellFormed, fun _ => h.parses, fun he => absurd he h.symbols_ne_nil⟩

theorem Means.last {a : Fragment} {m : Reading → Truth} (h : Means .atom a m) :
    Means .conjunction a m :=
  ⟨h.wellFormed, h.parses.last⟩

theorem Means.only {a : Fragment} {m : Reading → Truth} (h : Means .conjunction a m) :
    Means .expression a m :=
  ⟨h.wellFormed, h.parses.only⟩

theorem Means.paren {a : Fragment} {m : Reading → Truth} (h : Means .expression a m) :
    Means .atom a.parenthesized m :=
  ⟨h.wellFormed.parenthesized, h.parses.paren⟩

theorem means_alwaysTrue : Means .atom alwaysTrue (fun _ => .holds) :=
  ⟨Fragment.wellFormed_raw _, .always, rfl, fun _ _ => rfl⟩

theorem means_alwaysFalse : Means .atom alwaysFalse (fun _ => .fails) :=
  ⟨Fragment.wellFormed_raw _, .never, rfl, fun _ _ => rfl⟩

theorem means_clause {column : String} (hc : IsPlain column) (op : Comparison) (v : Value) :
    Means .atom (op.clause column v) (fun holds => holds column op v.encoded) := by
  refine ⟨(Fragment.wellFormed_raw _).append (Fragment.wellFormed_bind v),
    .compare ⟨column, hc⟩ op, ?_, fun _ _ => rfl⟩
  simp [Tree.text, Comparison.clause, Symbol.asked]

/-- The connective between the comparisons of a column with several values. -/
def connective (op : Comparison) : Connective := if op = .notEqual then .and else .or

theorem separator_connective (op : Comparison) : (connective op).separator = op.separator := by
  cases op <;> rfl

theorem meaning_many (holds : Reading) (column : String) (op : Comparison) (vs : List Value) :
    (Operand.many vs).meaning holds column op =
      (connective op).fold (vs.map fun v => holds column op v.encoded) := by
  by_cases h : op = .notEqual
  · rw [Operand.meaning, if_pos h, connective, if_pos h]
    rfl
  · rw [Operand.meaning, if_neg h, connective, if_neg h]
    rfl

/-- At least one fragment between connectives that are not empty makes an expression. -/
theorem Term.expression {c : Connective} {a : Fragment} {m : Reading → Truth} (h : Term c a m)
    (hne : a.symbols ≠ []) : Means .expression a m := by
  have hparses := h.parses hne
  cases c with
  | and => exact ⟨h.wellFormed, hparses.only⟩
  | or => exact ⟨h.wellFormed, hparses⟩

/-- Joined clauses, at least one, make an expression. -/
theorem means_join {α : Type} (c : Connective) {f : α → Fragment} {m : α → Reading → Truth}
    {x : α} {xs : List α} (h : ∀ y ∈ x :: xs, Means c.rank (f y) (m y)) :
    Means .expression (Fragment.join c.separator ((x :: xs).map f))
      (fun holds => c.fold ((x :: xs).map (m · holds))) := by
  have hterm : ∀ y ∈ x :: xs, Term c (f y) (m y) := fun y hy => (h y hy).term
  refine (Term.join c hterm).expression fun hnil => ?_
  have hall := (Fragment.symbols_join_eq_nil_iff c.separator
    (Term.wellFormed_of_mem_map hterm)).mp hnil
  exact (h x (by simp)).symbols_ne_nil (hall (f x) (by simp))

/-- An atom is of every rank that a connective joins. -/
theorem Means.rank {a : Fragment} {m : Reading → Truth} (h : Means .atom a m) (c : Connective) :
    Means c.rank a m := by
  cases c with
  | and => exact h.last
  | or => exact h.last.only

theorem means_group {column : String} (hc : IsPlain column) (op : Comparison)
    (vs : List Value) :
    Means .atom (op.group column vs)
      (fun holds => (Operand.many vs).meaning holds column op) := by
  simp only [meaning_many]
  match vs with
  | [] =>
    -- no value at all is a constant: true where all are asked for, false where one is
    rw [Comparison.group]
    by_cases h : op = .notEqual
    · rw [if_pos h, connective, if_pos h]
      exact means_alwaysTrue
    · rw [if_neg h, connective, if_neg h]
      exact means_alwaysFalse
  | [v] =>
    simp only [List.map_cons, List.map_nil, Connective.fold, List.foldr_cons, List.foldr_nil,
      Connective.apply_unit]
    exact means_clause hc op v
  | v :: w :: rest =>
    -- several values stand in parentheses, since ` OR ` could come apart at an ` AND ` outside
    show Means .atom (Fragment.join op.separator _).parenthesized _
    rw [← separator_connective]
    exact (means_join _ fun u _ => (means_clause hc op u).rank (connective op)).paren

end Clause

open Clause

theorem Operand.means_clause {column : String} (hc : IsPlain column) (op : Comparison)
    (operand : Operand) :
    Means .atom (op.operandClause column operand)
      (fun holds => operand.meaning holds column op) := by
  cases operand with
  | one v => exact Clause.means_clause hc op v
  | many vs => exact means_group hc op vs

/-- An operator without an operand asks nothing, so it makes no difference that it is left out. -/
theorem Comparisons.all_toList (cs : Comparisons) (g : Comparison → Operand → Truth) :
    Truth.all (cs.toList.map fun e => g e.1 e.2) =
      Truth.all (Comparison.all.map fun op =>
        match cs op with
        | some operand => g op operand
        | .none => .holds) := by
  unfold Comparisons.toList
  induction Comparison.all with
  | nil => rfl
  | cons op ops ih =>
    rw [List.map_cons, Truth.all_cons, ← ih]
    cases h : cs op with
    | none => simp [h]
    | some operand => simp [h]

/-- The clause of a condition asks what the condition says; comparisons without any operator have
an empty clause. -/
theorem Condition.term_clause {column : String} (hc : IsPlain column) (c : Condition) :
    Term .and (c.clause column) (fun holds => c.meaning holds column) := by
  cases c with
  | equals v => exact ((Clause.means_clause hc .equal v).rank .and).term
  | anyOf vs => exact ((means_group hc .equal vs).rank .and).term
  | compare cs =>
    have hjoin := Term.join .and fun (e : Comparison × Operand) (_ : e ∈ cs.toList) =>
      ((e.2.means_clause hc e.1).rank .and).term
    have hmeaning : (fun holds => (Condition.compare cs).meaning holds column) =
        fun holds => Connective.and.fold
          (cs.toList.map fun e => e.2.meaning holds column e.1) := funext fun holds =>
      (cs.all_toList fun op operand => operand.meaning holds column op).symm
    rw [hmeaning]
    exact hjoin

/-- The clause of a filter is a conjunction. -/
theorem Filter.means_clause {κ : Type} [Named κ] (f : Filter κ)
    (hf : ∀ n ∈ f.names, IsPlain n) :
    Means .conjunction f.clause (fun holds => f.meaning holds) := by
  have hjoin : Term .and f.conjoined (fun holds => f.meaning holds) :=
    Term.join .and fun (e : κ × Condition) he =>
      e.2.term_clause (hf (Named.name e.1) (List.mem_map.mpr ⟨e, he, rfl⟩))
  rw [f.clause_eq]
  by_cases h : f.conjoined.isEmpty = true
  · -- no condition has a clause, so all of them hold of every row
    have hmeaning : (fun holds => f.meaning holds) = fun _ => Truth.holds :=
      funext (hjoin.empty (hjoin.wellFormed.isEmpty_iff.mp h))
    rw [if_pos h, hmeaning]
    exact means_alwaysTrue.last
  · have hne := fun hnil => h (hjoin.wellFormed.isEmpty_iff.mpr hnil)
    rw [if_neg h]
    exact ⟨hjoin.wellFormed, hjoin.parses hne⟩

/-- The clause of a predicate is an expression. -/
theorem Predicate.means_clause {κ : Type} [Named κ] (p : Predicate κ)
    (hp : ∀ n ∈ p.names, IsPlain n) :
    Means .expression p.clause (fun holds => p.meaning holds) := by
  match p, hp with
  | all f, hp => exact (f.means_clause hp).only
  | any [], _ => exact means_alwaysFalse.last.only
  | any (f :: fs), hp =>
    have hfilters : ∀ g ∈ f :: fs, Means .atom g.clause.parenthesized _ := fun g hg =>
      (g.means_clause fun n hn => hp n (List.mem_flatMap.mpr ⟨g, hg, hn⟩)).only.paren
    exact means_join .or fun g hg => (hfilters g hg).rank .or

/-- **The clause of a predicate says what the predicate says.** If the names of its columns are
plain, its text is an expression of the grammar in exactly one way, and reading the text so, with
each placeholder standing for the next parameter, uses up the parameters and comes to what the
structure of the predicate asks, whatever the row and the reading of comparisons with it. -/
theorem Predicate.clause_meaning {κ : Type} [Named κ] (p : Predicate κ)
    (hp : ∀ n ∈ p.names, IsPlain n) :
    ∃ t : Tree .expression, t.text = (p.clause.render .question).toList ∧
      (∀ u : Tree .expression, u.text = (p.clause.render .question).toList → u = t) ∧
      ∀ holds : Reading, t.eval holds p.clause.params = some (p.meaning holds, []) := by
  obtain ⟨t, htext, heval⟩ := (p.means_clause hp).parses
  rw [← Fragment.toList_render_question] at htext
  refine ⟨t, htext, ?_, ?_⟩
  · intro u hu
    exact Tree.text_injective (hu.trans htext.symm)
  · intro holds
    have h := heval holds []
    rwa [List.append_nil] at h

/-- A predicate with alternatives, a list, an exclusion of several values and a column of another
table. -/
def sampled : Predicate String :=
  .any [(Filter.empty.equals "a" (.integer 1)).anyOf "b" [.integer 2, .null],
    (Filter.empty.compare "t.c" ((Comparisons.single .notEqual (.many [.integer 4, .integer 5])).set
      .greater (.one (.integer 6)))).compare "d" Comparisons.none]

theorem Predicate.clause_meaning_sampled :
    sampled.clause.render .question =
        "(a = ? AND (b = ? OR b = ?)) OR (t.c > ? AND (t.c <> ? AND t.c <> ?))" ∧
      ∃ t : Tree .expression, t.text = (sampled.clause.render .question).toList ∧
        (∀ u : Tree .expression, u.text = (sampled.clause.render .question).toList → u = t) ∧
        ∀ holds : Reading, t.eval holds sampled.clause.params = some (sampled.meaning holds, []) :=
  ⟨by decide +kernel, sampled.clause_meaning (by decide +kernel)⟩

end Tabular
