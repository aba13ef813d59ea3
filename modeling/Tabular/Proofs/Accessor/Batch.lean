import Tabular.Proofs.Accessor.Exchange

/-!
# Batches

A batch does what its rows do that are inserted one after another, up to the first that fails.

- `Progress`: what insertions have come to.
- `Table.InTurn`: rows are inserted one after another, and none of them fails.
- `Table.insertMany_in_turn`: **a batch inserts its rows in turn**. If one fails the batch fails in
  the same way, tries none of the later ones, and reports which one it was.
-/

namespace Tabular

/-- What insertions have come to: the rows as they are kept, the state of the engine, what was
logged, and what was handed to the engine. -/
structure Progress (σ ρ : Type) where
  kept : List ρ
  state : σ
  events : List Event
  sent : List Delivery

namespace Table

variable {ρ σ : Type}

/-- The rows are inserted one after another, each one on the engine as the one before left it, and
none of them fails. -/
inductive InTurn (t : Table ρ) (e : Engine σ) : List Record → σ → Progress σ ρ → Prop where
  | nil (s : σ) : InTurn t e [] s ⟨[], s, [], []⟩
  | cons {row : Record} {rows : List Record} {s : σ} {kept : ρ} {p : Progress σ ρ}
      (hrow : (t.insert e row s).result = .ok kept)
      (hrest : InTurn t e rows (t.insert e row s).state p) :
      InTurn t e (row :: rows) s
        ⟨kept :: p.kept, p.state, (t.insert e row s).events ++ p.events,
          (Call.insert t row).attempts e s ++ p.sent⟩

/-- No row is lost, and none is kept twice. -/
theorem InTurn.length_kept {t : Table ρ} {e : Engine σ} {rows : List Record} {s : σ}
    {p : Progress σ ρ} (h : t.InTurn e rows s p) : p.kept.length = rows.length := by
  induction h with
  | nil => rfl
  | cons hrow hrest ih => rw [List.length_cons, List.length_cons, ih]

section

variable {t : Table ρ} {e : Engine σ} {before rows : List Record} {s : σ} {p : Progress σ ρ}

/-- Rows go in in turn, or there is a first one among them that fails. -/
theorem inTurn_or_fails (t : Table ρ) (e : Engine σ) (rows : List Record) : ∀ s : σ,
    (∃ p, t.InTurn e rows s p) ∨
      ∃ before row after p failure, rows = before ++ row :: after ∧ t.InTurn e before s p ∧
        (t.insert e row p.state).result = .error failure := by
  induction rows with
  | nil => exact fun s => .inl ⟨_, .nil s⟩
  | cons row rows ih =>
    intro s
    cases hrow : (t.insert e row s).result with
    | error failure => exact .inr ⟨[], row, rows, _, failure, rfl, .nil s, hrow⟩
    | ok kept =>
      -- the row is in, and what becomes of the others is decided where it leaves the engine
      rcases ih (t.insert e row s).state with
        ⟨p, hp⟩ | ⟨before, bad, after, p, failure, rfl, hp, hbad⟩
      · exact .inl ⟨_, .cons hrow hp⟩
      · exact .inr ⟨row :: before, bad, after, _, failure, rfl, .cons hrow hp, hbad⟩

/-- A batch that begins with rows that go in in turn goes on where they have come to. -/
theorem InTurn.insertFrom (h : t.InTurn e before s p) (total : Nat) (rows : List Record) :
    ∀ index, t.insertFrom e total index (before ++ rows) s =
      let rest := t.insertFrom e total (index + before.length) rows p.state
      ⟨rest.result.map (p.kept ++ ·), rest.state, p.events ++ rest.events⟩ := by
  induction h with
  | nil s =>
    intro index
    dsimp only [List.length_nil, List.nil_append, Nat.add_zero]
    -- whichever way the others end, nothing is put before them
    rcases t.insertFrom e total index rows s with ⟨_ | _, u, es⟩
    · rfl
    · rfl
  | @cons row before s kept p hrow hrest ih =>
    intro index
    have hindex : index + 1 + before.length = index + (row :: before).length := by
      rw [List.length_cons, Nat.add_comm before.length, Nat.add_assoc]
    rw [List.cons_append, insertFrom_of_ok hrow, ih, hindex]
    dsimp only
    rw [List.append_assoc]
    rcases t.insertFrom e total (index + (row :: before).length) rows p.state with ⟨_ | _, u, es⟩
    · rfl
    · rfl

/-- What an insertion hands to its engine does not depend on what was handed over before. -/
theorem sent_insert (t : Table ρ) (e : Engine σ) (row : Record) (w : Watched σ) :
    (t.insert e.watched row w).state.sent =
      w.sent ++ (Call.insert t row).attempts e w.inner := by
  have hinsert : (Call.insert t row).attempts e w.inner =
      (t.insert e.watched row ⟨w.inner, [], []⟩).state.sent := rfl
  rw [hinsert, insert_eq, Action.bind_ofExcept_apply, Action.bind_ofExcept_apply,
    Request.query_apply, Request.query_apply]
  rfl

/-- Rows that go in in turn do so under watch, and all that they hand over is seen. -/
theorem InTurn.watched (h : t.InTurn e rows s p) : ∀ w : Watched σ, w.inner = s →
    ∃ q, t.InTurn e.watched rows w q ∧ q.state.inner = p.state ∧
      q.state.sent = w.sent ++ p.sent := by
  induction h with
  | nil s =>
    rintro w rfl
    exact ⟨_, .nil w, rfl, (List.append_nil _).symm⟩
  | @cons row rows s kept p hrow hrest ih =>
    rintro w rfl
    obtain ⟨hresult, hstate, -⟩ := (Call.insert t row).perform_watched e w
    obtain ⟨q, hq, hinner, hsent⟩ := ih (t.insert e.watched row w).state hstate
    refine ⟨_, .cons (hresult.trans hrow) hq, hinner, ?_⟩
    rw [hsent, sent_insert, List.append_assoc]

end

/-- **A batch within the limit inserts its rows in turn.** If none fails, its result is theirs in
their order, and it leaves and logs what they do. Otherwise it ends at the first row that fails, in
the same way as that row: the rows before it are in, no later one is handed to the engine, and one
warning comes after what the insertions have logged, which tells the index of the row. -/
theorem insertMany_in_turn (t : Table ρ) (e : Engine σ) (s : σ) {rows : List Record}
    (hlimit : rows.length ≤ t.settings.batchLimit) :
    (∃ p, t.InTurn e rows s p ∧ p.kept.length = rows.length ∧
      t.insertMany e rows s = ⟨.ok p.kept, p.state, p.events⟩ ∧
      (Call.insertMany t rows).attempts e s = p.sent) ∨
    ∃ before row after p failure warning,
      rows = before ++ row :: after ∧ t.InTurn e before s p ∧
      (t.insert e row p.state).result = .error failure ∧
      t.insertMany e rows s =
        ⟨.error failure, (t.insert e row p.state).state,
          p.events ++ ((t.insert e row p.state).events ++ [warning])⟩ ∧
      (Call.insertMany t rows).attempts e s =
        p.sent ++ (Call.insert t row).attempts e p.state ∧
      warning.level = .warn ∧
      warning.fields = [("message", "insert_many stopped"), ("table", t.name),
        ("index", toString before.length), ("total", toString rows.length),
        ("error", failure.message)] := by
  have hbatch : ∀ {τ : Type} (f : Engine τ),
      t.insertMany f rows = t.insertFrom f rows.length 0 rows := by
    intro τ f
    exact insertMany_of_limit (if_neg (Nat.not_lt.mpr hlimit))
  have hattempts : (Call.insertMany t rows).attempts e s =
      (t.insertFrom e.watched rows.length 0 rows ⟨s, [], []⟩).state.sent := by
    rw [← hbatch]
    rfl
  rcases t.inTurn_or_fails e rows s with ⟨p, hp⟩ | ⟨before, row, after, p, failure, rfl, hp, hrow⟩
  · left
    -- all rows go in, and the batch ends with the empty rest
    obtain ⟨q, hq, -, hsent⟩ := hp.watched ⟨s, [], []⟩ rfl
    have hdone := hp.insertFrom rows.length [] 0
    have hwatched := hq.insertFrom rows.length [] 0
    rw [List.append_nil] at hdone hwatched
    refine ⟨p, hp, hp.length_kept, ?_, ?_⟩
    · rw [hbatch, hdone]
      simp [Table.insertFrom, pure, Action.pure, Except.map]
    · rw [hattempts, hwatched]
      exact hsent
  · right
    -- the row that fails does so in the same way under watch, after the same rows
    obtain ⟨q, hq, hinner, hsent⟩ := hp.watched ⟨s, [], []⟩ rfl
    obtain ⟨hresult, -, -⟩ := (Call.insert t row).perform_watched e q.state
    rw [hinner] at hresult
    refine ⟨before, row, after, p, failure,
      .batchStopped t.name before.length (before ++ row :: after).length failure, rfl, hp, hrow,
      ?_, ?_, rfl, rfl⟩
    · rw [hbatch, hp.insertFrom, insertFrom_of_error hrow, Nat.zero_add]
      rfl
    · rw [hattempts, hq.insertFrom, insertFrom_of_error (hresult.trans hrow)]
      dsimp only
      rw [sent_insert, hsent, hinner, List.nil_append]

end Table

/-- A recorder that keeps one row and then answers with none. -/
def sampledKeeper : Recorder := ⟨.numbered, [{ rows := [.empty] }], []⟩

/-- Three rows for one table. -/
def sampledNames : List Record :=
  ["ada", "grace", "edsger"].map fun name => OrderedMap.empty.insert "name" (.text name)

theorem Table.insertMany_in_turn_sampled :
    let t : Table Record := ⟨"users", {}, .ok⟩
    sampledNames.length ≤ t.settings.batchLimit ∧
      (t.insertMany Recorder.engine sampledNames sampledKeeper).result =
        .error (.storage (.noRowReturned "users")) ∧
      ∃ before row after p failure warning,
        sampledNames = before ++ row :: after ∧
        t.InTurn Recorder.engine before sampledKeeper p ∧
        (t.insert Recorder.engine row p.state).result = .error failure ∧
        t.insertMany Recorder.engine sampledNames sampledKeeper =
          ⟨.error failure, (t.insert Recorder.engine row p.state).state,
            p.events ++ ((t.insert Recorder.engine row p.state).events ++ [warning])⟩ ∧
        warning.level = .warn := by
  intro t
  have hfails : (t.insertMany Recorder.engine sampledNames sampledKeeper).result =
      .error (.storage (.noRowReturned "users")) := rfl
  have hlimit : sampledNames.length ≤ t.settings.batchLimit := by decide
  refine ⟨hlimit, hfails, ?_⟩
  rcases t.insertMany_in_turn Recorder.engine sampledKeeper hlimit with
    ⟨p, -, -, hdone, -⟩ |
    ⟨before, row, after, p, failure, warning, hrows, hp, hrow, hdone, -, hlevel, -⟩
  · rw [hdone] at hfails
    cases hfails
  · exact ⟨before, row, after, p, failure, warning, hrows, hp, hrow, hdone, hlevel⟩

end Tabular
