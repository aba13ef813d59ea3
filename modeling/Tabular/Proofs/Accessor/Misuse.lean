import Tabular.Engine.Deferred
import Tabular.Proofs.Accessor.Exchange
import Tabular.Proofs.Fragment.Symbols

/-!
# Misuse of operations

Three ways to call an operation break what it asks for. They are refused before anything happens,
and nothing else is refused.

- `Assignment.Idle`: an assignment that does nothing. A mutation is refused exactly if all of its
  assignments are idle (`Mutation.clause_error_iff`).
- `Call.Misuse`: the three ways, each with its fault.
- `Call.refused_or_attempted`: **misuse fails with its fault and does nothing; any other call but
  the empty batch comes to a statement**, and fails with such a fault only if the engine or the
  decoder of the caller did.
-/

namespace Tabular

/-! ## Mutations that assign nothing -/

/-- The assignment does nothing: arithmetic without any operator. -/
def Assignment.Idle : Assignment → Prop
  | value _ => False
  | arithmetic ops => ∀ op, ops op = none

theorem Arithmetic.toList_eq_nil_iff {ops : Arithmetic} :
    ops.toList = [] ↔ ∀ op, ops op = Option.none := by
  unfold toList
  rw [List.filterMap_eq_nil_iff]
  constructor
  · intro h op
    exact Option.map_eq_none_iff.mp (h op (by cases op <;> decide))
  · intro h op _
    rw [h op, Option.map_none]

theorem UpdateOperator.wellFormed_clause (op : UpdateOperator) (column : String)
    (operand : Number) : (op.clause column operand).WellFormed := by
  unfold clause
  split
  · exact (Fragment.wellFormed_raw _).append (Fragment.wellFormed_bind _)
  · exact (Fragment.wellFormed_raw _).append (Fragment.wellFormed_bind _)

theorem UpdateOperator.symbols_clause_ne_nil (op : UpdateOperator) (column : String)
    (operand : Number) : (op.clause column operand).symbols ≠ [] := by
  unfold clause
  split
  · simp
  · simp

theorem Assignment.wellFormed_operators (column : String) (ops : Arithmetic) :
    ∀ a ∈ ops.toList.map (fun o => o.1.clause column o.2), a.WellFormed := by
  intro a ha
  obtain ⟨⟨op, operand⟩, -, rfl⟩ := List.mem_map.mp ha
  exact op.wellFormed_clause column operand

theorem Assignment.wellFormed_clause (column : String) (a : Assignment) :
    (a.clause column).WellFormed := by
  cases a with
  | value v => exact (Fragment.wellFormed_raw _).append (Fragment.wellFormed_bind v)
  | arithmetic ops => exact Fragment.wellFormed_join _ (wellFormed_operators column ops)

/-- An assignment is written as nothing exactly if it does nothing. -/
theorem Assignment.symbols_clause_eq_nil_iff {column : String} {a : Assignment} :
    (a.clause column).symbols = [] ↔ a.Idle := by
  cases a with
  | value v => simp [clause, Idle]
  | arithmetic ops =>
    have hjoin := Fragment.symbols_join_eq_nil_iff ", " (wellFormed_operators column ops)
    have hlist : (∀ a ∈ ops.toList.map (fun o => o.1.clause column o.2), a.symbols = []) ↔
        ops.toList = [] := by
      constructor
      · intro h
        cases hops : ops.toList with
        | nil => rfl
        | cons o rest =>
          rw [hops] at h
          exact absurd (h _ List.mem_cons_self) (o.1.symbols_clause_ne_nil column o.2)
      · intro h
        rw [h]
        exact fun _ ha => absurd ha List.not_mem_nil
    exact hjoin.trans (hlist.trans Arithmetic.toList_eq_nil_iff)

/-- A mutation is refused exactly if none of its assignments does anything. -/
theorem Mutation.clause_error_iff {κ : Type} [Named κ] {m : Mutation κ} {failure : Failure} :
    m.clause = .error failure ↔
      (∀ entry ∈ m.columns.entries, entry.2.Idle) ∧ failure = .configuration .noAssignment := by
  have hwell : ∀ a ∈ m.columns.entries.map (fun e => e.2.clause (Named.name e.1)),
      a.WellFormed := by
    intro a ha
    obtain ⟨entry, -, rfl⟩ := List.mem_map.mp ha
    exact entry.2.wellFormed_clause _
  have hidle : m.assignments.isEmpty = true ↔ ∀ entry ∈ m.columns.entries, entry.2.Idle := by
    unfold assignments
    rw [(Fragment.wellFormed_join ", " hwell).isEmpty_iff, Fragment.symbols_join_eq_nil_iff _ hwell,
      List.forall_mem_map]
    exact forall₂_congr fun _ _ => Assignment.symbols_clause_eq_nil_iff
  rw [clause_eq]
  by_cases h : m.assignments.isEmpty = true
  · rw [if_pos h, Except.error.injEq, eq_comm]
    exact (and_iff_right (hidle.mp h)).symm
  · rw [if_neg h]
    constructor
    · nofun
    · rintro ⟨hall, -⟩
      exact absurd (hidle.mpr hall) h

/-! ## The three ways -/

namespace Call

/-- A call breaks what its operation asks for: one row is wanted under another limit than one, a
batch has more rows than its table allows, or an update assigns nothing. -/
inductive Misuse : {α : Type} → Call α → ConfigurationFault → Prop where
  | selectOne {κ ρ α : Type} [Named κ] {t : Table ρ} {decode : Record → Except Failure α}
      {p : Predicate κ} {q : Query κ} {limit : Nat} (hlimit : q.limit = some limit)
      (hne : limit ≠ 1) : Misuse (selectOneAs t decode p q) (.limitNotOne limit)
  | joinOne {ρ τ α : Type} {j : Join ρ τ} {decode : Record → Except Failure α}
      {p : Predicate j.Column} {q : Query j.Column} {limit : Nat} (hlimit : q.limit = some limit)
      (hne : limit ≠ 1) : Misuse (joinOneAs j decode p q) (.limitNotOne limit)
  | batch {ρ : Type} {t : Table ρ} {rows : List Record}
      (h : t.settings.batchLimit < rows.length) :
      Misuse (insertMany t rows) (.batchTooLarge t.settings.batchLimit rows.length)
  | update {κ ρ : Type} [Named κ] {t : Table ρ} {m : Mutation κ} {p : Predicate κ}
      (h : ∀ entry ∈ m.columns.entries, entry.2.Idle) : Misuse (update t m p) .noAssignment

end Call

theorem Query.misuse_eq_some_iff {κ : Type} {q : Query κ} {failure : Failure} :
    q.misuse = some failure ↔
      ∃ limit, q.limit = some limit ∧ limit ≠ 1 ∧
        failure = .configuration (.limitNotOne limit) := by
  unfold misuse
  cases hlimit : q.limit with
  | none => simp
  | some limit =>
    rw [Option.getD_some]
    by_cases hone : limit = 1
    · simp [hone]
    · simp [hone, eq_comm]

theorem Table.misuse_eq_some_iff {ρ : Type} {t : Table ρ} {rows : List Record}
    {failure : Failure} :
    t.misuse rows = some failure ↔ t.settings.batchLimit < rows.length ∧
      failure = .configuration (.batchTooLarge t.settings.batchLimit rows.length) := by
  unfold misuse
  by_cases h : t.settings.batchLimit < rows.length
  · simp [h, eq_comm]
  · simp [h]

namespace Call

variable {α : Type} {c : Call α}

/-- Calls are refused for misuse and for nothing else. -/
theorem refusal_eq_some_iff {failure : Failure} :
    c.refusal = some failure ↔ ∃ fault, c.Misuse fault ∧ failure = .configuration fault := by
  constructor
  · intro h
    cases c with
    | selectOneAs t decode p q =>
      obtain ⟨limit, hlimit, hne, rfl⟩ := Query.misuse_eq_some_iff.mp h
      exact ⟨_, .selectOne hlimit hne, rfl⟩
    | joinOneAs j decode p q =>
      obtain ⟨limit, hlimit, hne, rfl⟩ := Query.misuse_eq_some_iff.mp h
      exact ⟨_, .joinOne hlimit hne, rfl⟩
    | insertMany t rows =>
      obtain ⟨hlimit, rfl⟩ := Table.misuse_eq_some_iff.mp h
      exact ⟨_, .batch hlimit, rfl⟩
    | update t m p =>
      cases hm : m.clause with
      | ok a =>
        rw [refusal, hm] at h
        cases h
      | error failure' =>
        rw [refusal, hm] at h
        cases h
        obtain ⟨hidle, rfl⟩ := Mutation.clause_error_iff.mp hm
        exact ⟨_, .update hidle, rfl⟩
    | selectAs => cases h
    | count => cases h
    | insert => cases h
    | delete => cases h
    | joinAs => cases h
  · rintro ⟨fault, hmisuse, rfl⟩
    cases hmisuse with
    | selectOne hlimit hne => exact Query.misuse_eq_some_iff.mpr ⟨_, hlimit, hne, rfl⟩
    | joinOne hlimit hne => exact Query.misuse_eq_some_iff.mpr ⟨_, hlimit, hne, rfl⟩
    | batch hlimit => exact Table.misuse_eq_some_iff.mpr ⟨hlimit, rfl⟩
    | update hidle =>
      rw [refusal, Mutation.clause_error_iff.mpr ⟨hidle, rfl⟩]

theorem refusal_eq_none_iff : c.refusal = none ↔ ∀ fault, ¬ c.Misuse fault := by
  constructor
  · intro h fault hmisuse
    rw [refusal_eq_some_iff.mpr ⟨fault, hmisuse, rfl⟩] at h
    cases h
  · intro h
    cases hrefusal : c.refusal with
    | none => rfl
    | some failure =>
      obtain ⟨fault, hmisuse, -⟩ := refusal_eq_some_iff.mp hrefusal
      exact absurd hmisuse (h fault)

/-- What a call objects to in the rows of an answer is no misuse. -/
theorem not_objects_configuration {fault : ConfigurationFault} :
    ¬ c.Objects (.configuration fault) := by
  cases c with
  | insert t row => exact Failure.noConfusion
  | insertMany t rows => exact Failure.noConfusion
  | count t p q =>
    rintro ⟨_, hfault⟩
    cases hfault
  | selectAs => exact id
  | selectOneAs => exact id
  | update => exact id
  | delete => exact id
  | joinAs => exact id
  | joinOneAs => exact id

/-- **Misuse is refused before anything happens, and nothing else is.** A misused call fails with
its fault and leaves every engine as it was, with no event. Any other call has its engine get ready
and attempts a statement, apart from the empty batch, which gives no rows and does nothing. If it
then fails as misuse does, that is what the engine answered to its last statement, or what the
decoder of the caller made of a row in that answer. -/
theorem refused_or_attempted (c : Call α) :
    (∀ fault, c.Misuse fault → ∀ {σ : Type} (e : Engine σ) (s : σ),
        c.perform e s = ⟨.error (.configuration fault), s, []⟩) ∧
      ((∀ fault, ¬ c.Misuse fault) → ∀ {σ : Type} (e : Engine σ) (s : σ),
        (∃ a, c.EmptyBatch a ∧ c.perform e s = ⟨.ok a, s, []⟩) ∨
        ∃ (xs : List Exchange) (x : Exchange),
          (c.perform e.watched ⟨s, [], []⟩).state.told = xs.flatMap Exchange.told ∧
          c.attempts e s = xs.map Exchange.delivery ∧ xs.getLast? = some x ∧
          ∀ fault, (c.perform e s).result = .error (.configuration fault) →
            x.answer.failure? = some (.configuration fault) ∨
              ∃ rows, x.answer = .rows (.ok rows) ∧
                ∃ row ∈ rows, c.Rejects row.decoded (.configuration fault)) := by
  constructor
  · intro fault hmisuse σ e s
    rw [perform_of_refusal (refusal_eq_some_iff.mpr ⟨fault, hmisuse, rfl⟩)]
    rfl
  · intro hproper σ e s
    have hrefusal := refusal_eq_none_iff.mpr hproper
    by_cases hstatements : c.statements = []
    · obtain ⟨a, hempty, ha⟩ := perform_of_nil hrefusal hstatements
      refine .inl ⟨a, hempty, ?_⟩
      rw [ha]
      rfl
    · -- the last exchange explains a failure, and the call itself objects to no configuration
      obtain ⟨xs, ⟨haccount, hexplained⟩, hxs⟩ := accounted hrefusal e ⟨s, [], []⟩
      obtain ⟨hresult, -, -⟩ := c.perform_watched e ⟨s, [], []⟩
      have hlast := List.getLast?_eq_some_getLast (hxs hstatements)
      refine .inr ⟨xs, _, haccount.told_eq, haccount.sent_eq, hlast, ?_⟩
      intro fault hfails
      obtain ⟨x, hx, hexplains⟩ := hexplained _ (hresult.trans hfails)
      rw [hlast] at hx
      cases hx
      rcases hexplains with hanswer | hrejects | hobjects
      · exact .inl hanswer
      · exact .inr hrejects
      · exact absurd hobjects not_objects_configuration

end Call

/-- An update that names a column and does nothing to it. -/
def sampledIdleUpdate : Call Nat :=
  .update (⟨"users", {}, .ok⟩ : Table Record)
    ((Mutation.empty : Mutation String).apply "visits" Arithmetic.none)
    (Predicate.all Filter.empty)

/-- A selection of one row whose decoder fails as a misused call does. -/
def sampledReading : Call (Option Nat) :=
  .selectOneAs (⟨"users", {}, .ok⟩ : Table Record)
    (fun _ => .error (.configuration (.reported "no reader")))
    (Predicate.all Filter.empty : Predicate String) { limit := some 1 }

theorem Call.refused_or_attempted_sampled :
    sampledIdleUpdate.Misuse .noAssignment ∧
      sampledIdleUpdate.perform
          (Deferred.engine (fun n : Nat => (.error .uninitialized, n + 1)) Recorder.engine)
          ⟨0, none, 0⟩ =
        ⟨.error (.configuration .noAssignment), ⟨0, none, 0⟩, []⟩ ∧
      (∀ fault, ¬ sampledReading.Misuse fault) ∧
      (sampledReading.perform Recorder.engine ⟨.numbered, [{ rows := [.empty] }], []⟩).result =
        .error (.configuration (.reported "no reader")) ∧
      ∃ (xs : List Exchange) (x : Exchange),
        sampledReading.attempts Recorder.engine ⟨.numbered, [{ rows := [.empty] }], []⟩ =
          xs.map Exchange.delivery ∧ xs.getLast? = some x ∧
        (x.answer.failure? = some (.configuration (.reported "no reader")) ∨
          ∃ rows, x.answer = .rows (.ok rows) ∧
            ∃ row ∈ rows, sampledReading.Rejects row.decoded
              (.configuration (.reported "no reader"))) := by
  have hmisuse : sampledIdleUpdate.Misuse .noAssignment := by
    refine .update fun entry hentry => ?_
    cases List.mem_singleton.mp hentry
    exact fun op => rfl
  have hproper : ∀ fault, ¬ sampledReading.Misuse fault := refusal_eq_none_iff.mp rfl
  have hfails : (sampledReading.perform Recorder.engine
      ⟨.numbered, [{ rows := [.empty] }], []⟩).result =
      .error (.configuration (.reported "no reader")) := rfl
  refine ⟨hmisuse, (refused_or_attempted sampledIdleUpdate).1 _ hmisuse _ _, hproper, hfails, ?_⟩
  rcases (refused_or_attempted sampledReading).2 hproper Recorder.engine
    ⟨.numbered, [{ rows := [.empty] }], []⟩ with ⟨a, -, ha⟩ | ⟨xs, x, -, hattempts, hlast, hblame⟩
  · rw [ha] at hfails
    cases hfails
  · exact ⟨xs, x, hattempts, hlast, hblame _ hfails⟩

end Tabular
