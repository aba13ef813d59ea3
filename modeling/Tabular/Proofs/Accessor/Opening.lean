import Tabular.Proofs.Accessor.Watch

/-!
# How calls begin

A call either is refused, or has nothing to say, or begins with a request to its engine. Only the
last kind of call does anything at all.

- `Call.refusal`: the misuse that a call is refused for.
- `Call.Speaks`: the call is not refused and comes to a statement.
- `Call.perform_of_refusal`, `Call.perform_of_silent`: a call that does not speak leaves everything
  as it was, on every engine.
- `Opens`: an action begins with another one, and passes its failure on.
- `Call.opens`: a call that speaks begins with a request, so that it depends on no more than what
  its engine is once ready (`Call.perform_congr`), and an engine that is down then ends it at its
  first statement (`Call.perform_of_down`).
-/

namespace Tabular

/-! ## Calls that say nothing -/

/-- The misuse of a query for one row: a limit other than one. -/
def Query.misuse {κ : Type} (q : Query κ) : Option Failure :=
  if q.limit.getD 1 = 1 then none else some (.configuration (.limitNotOne (q.limit.getD 1)))

/-- The misuse of a batch: more rows than its table allows. -/
def Table.misuse {ρ : Type} (t : Table ρ) (rows : List Record) : Option Failure :=
  if t.settings.batchLimit < rows.length then
    some (.configuration (.batchTooLarge t.settings.batchLimit rows.length))
  else none

theorem Query.misuse_configuration {κ : Type} {q : Query κ} {failure : Failure}
    (h : q.misuse = some failure) : ∃ fault, failure = .configuration fault := by
  unfold misuse at h
  split at h
  · cases h
  · cases h
    exact ⟨_, rfl⟩

theorem Table.misuse_configuration {ρ : Type} {t : Table ρ} {rows : List Record}
    {failure : Failure} (h : t.misuse rows = some failure) :
    ∃ fault, failure = .configuration fault := by
  unfold misuse at h
  split at h
  · cases h
    exact ⟨_, rfl⟩
  · cases h

theorem Mutation.clause_configuration {κ : Type} [Named κ] {m : Mutation κ} {failure : Failure}
    (h : m.clause = .error failure) : ∃ fault, failure = .configuration fault := by
  unfold clause at h
  dsimp only at h
  split at h
  · cases h
    exact ⟨_, rfl⟩
  · cases h

section

variable {κ ρ σ α : Type} [Named κ] {t : Table ρ} {e : Engine σ} {join : Option JoinClause}
  {decode : Record → Except Failure α} {p : Predicate κ} {q : Query κ}

theorem Table.fetchOne_of_misuse {failure : Failure} (h : q.misuse = some failure) :
    t.fetchOne e join decode p q = throw failure := by
  unfold Query.misuse at h
  unfold fetchOne
  dsimp only
  split at h
  · cases h
  next hlimit =>
    cases h
    rw [if_neg hlimit]

theorem Table.fetchOne_of_limit (h : q.misuse = none) :
    t.fetchOne e join decode p q = do
      let rows ← t.fetch e join decode p q.limited
      return rows.head? := by
  unfold Query.misuse at h
  unfold fetchOne
  dsimp only
  split at h
  next hlimit =>
    rw [if_pos hlimit]
    rfl
  · cases h

theorem Table.insertMany_of_misuse {rows : List Record} {failure : Failure}
    (h : t.misuse rows = some failure) : t.insertMany e rows = throw failure := by
  unfold misuse at h
  unfold insertMany
  split at h
  next hlimit =>
    cases h
    rw [if_pos hlimit]
  · cases h

theorem Table.insertMany_of_limit {rows : List Record} (h : t.misuse rows = none) :
    t.insertMany e rows = t.insertFrom e rows.length 0 rows := by
  unfold misuse at h
  unfold insertMany
  split at h
  · cases h
  next hlimit => rw [if_neg hlimit]

end

namespace Call

variable {σ α : Type}

/-- The misuse that a call is refused for: a limit other than one where one row is asked for, a
batch above the limit of its table, an update that assigns nothing. -/
def refusal : {α : Type} → Call α → Option Failure
  | _, selectOneAs _ _ _ q => q.misuse
  | _, joinOneAs _ _ _ q => q.misuse
  | _, insertMany t rows => t.misuse rows
  | _, update _ m _ =>
    match m.clause with
    | .ok _ => none
    | .error e => some e
  | _, _ => none

/-- The call is not refused and comes to a statement. -/
def Speaks (c : Call α) : Prop := c.refusal = none ∧ c.statements ≠ []

/-- Whatever a call is refused for is a misuse of it. -/
theorem refusal_configuration {c : Call α} {failure : Failure} (h : c.refusal = some failure) :
    ∃ fault, failure = .configuration fault := by
  cases c with
  | selectOneAs t decode p q => exact Query.misuse_configuration h
  | joinOneAs j decode p q => exact Query.misuse_configuration h
  | insertMany t rows => exact Table.misuse_configuration h
  | update t m p =>
    cases hm : m.clause with
    | ok a =>
      rw [refusal, hm] at h
      cases h
    | error e =>
      rw [refusal, hm] at h
      cases h
      exact Mutation.clause_configuration hm
  | selectAs => cases h
  | count => cases h
  | insert => cases h
  | delete => cases h
  | joinAs => cases h

/-- A call that is refused fails and does nothing else, on every engine. -/
theorem perform_of_refusal {c : Call α} {failure : Failure} (h : c.refusal = some failure)
    (e : Engine σ) : c.perform e = throw failure := by
  cases c with
  | selectOneAs t decode p q => exact Table.fetchOne_of_misuse h
  | joinOneAs j decode p q => exact Table.fetchOne_of_misuse h
  | insertMany t rows => exact Table.insertMany_of_misuse h
  | update t m p =>
    cases hm : m.clause with
    | ok a =>
      rw [refusal, hm] at h
      cases h
    | error e' =>
      rw [refusal, hm] at h
      cases h
      exact Table.update_of_error hm
  | selectAs => cases h
  | count => cases h
  | insert => cases h
  | delete => cases h
  | joinAs => cases h

/-- The call is a batch without rows, and this is its result. -/
inductive EmptyBatch : {α : Type} → Call α → α → Prop where
  | intro {ρ : Type} (t : Table ρ) : EmptyBatch (insertMany t []) []

/-- The call that is not refused and comes to no statement is the empty batch, which succeeds and
does nothing else. -/
theorem perform_of_nil {c : Call α} (hrefusal : c.refusal = none) (h : c.statements = []) :
    ∃ a : α, c.EmptyBatch a ∧ ∀ {σ : Type} (e : Engine σ), c.perform e = pure a := by
  cases c with
  | insertMany t rows =>
    have hrows : rows = [] := List.map_eq_nil_iff.mp h
    subst hrows
    refine ⟨[], .intro t, fun e => ?_⟩
    show t.insertMany e [] = _
    rw [Table.insertMany_of_limit hrefusal]
    rfl
  | update t m p =>
    cases hm : m.clause with
    | ok a =>
      rw [statements, hm] at h
      cases h
    | error e =>
      rw [refusal, hm] at hrefusal
      cases hrefusal
  | selectAs => cases h
  | selectOneAs => cases h
  | count => cases h
  | insert => cases h
  | delete => cases h
  | joinAs => cases h
  | joinOneAs => cases h

/-- A call that does not speak leaves everything as it was, and ends in the same way on every
engine. -/
theorem perform_of_silent {c : Call α} (h : ¬ c.Speaks) :
    ∃ r : Except Failure α, ∀ {σ : Type} (e : Engine σ) (s : σ), c.perform e s = ⟨r, s, []⟩ := by
  cases hrefusal : c.refusal with
  | some failure =>
    refine ⟨.error failure, fun e s => ?_⟩
    rw [perform_of_refusal hrefusal]
    rfl
  | none =>
    have hnil : c.statements = [] := by
      by_cases hnil : c.statements = []
      · exact hnil
      · exact absurd ⟨hrefusal, hnil⟩ h
    obtain ⟨a, -, ha⟩ := perform_of_nil hrefusal hnil
    refine ⟨.ok a, fun e s => ?_⟩
    rw [ha]
    rfl

end Call

/-! ## Calls that speak -/

/-- What follows an action passes a failure on and leaves the state as it is then; it may report
the failure. -/
def Passes {σ α β : Type} (k : Except Failure β → Action σ α) : Prop :=
  ∀ e s, (k (.error e) s).result = .error e ∧ (k (.error e) s).state = s

/-- An action begins with another one and passes its failure on. -/
def Opens {σ α β : Type} (x : Action σ β) (y : Action σ α) : Prop :=
  ∃ k : Except Failure β → Action σ α, y = x.andThen k ∧ Passes k

namespace Opens

variable {σ α β γ : Type} {x : Action σ β} {y : Action σ α}

theorem refl (x : Action σ β) : Opens x x := by
  refine ⟨Action.ofExcept, ?_, fun _ _ => ⟨rfl, rfl⟩⟩
  funext s
  simp [Action.andThen, Action.ofExcept]

theorem andThen (h : Opens x y) {l : Except Failure α → Action σ γ} (hl : Passes l) :
    Opens x (y.andThen l) := by
  obtain ⟨k, rfl, hk⟩ := h
  refine ⟨fun r => (k r).andThen l, ?_, fun e s => ?_⟩
  · funext s
    simp [Action.andThen]
  · obtain ⟨hresult, hstate⟩ := hk e s
    show (((k (.error e)).andThen l) s).result = _ ∧ (((k (.error e)).andThen l) s).state = _
    rw [Action.andThen_apply, hresult, hstate]
    exact hl e s

theorem bind (h : Opens x y) (f : α → Action σ γ) : Opens x (y >>= f) := by
  rw [Action.bind_eq_andThen]
  exact h.andThen fun _ _ => ⟨rfl, rfl⟩

/-- A failure that is handled by failing in the same way is passed on. -/
theorem handle (h : Opens x y) {f : Failure → Action σ α}
    (hf : ∀ e s, (f e s).result = .error e ∧ (f e s).state = s) :
    Opens x (Action.handle y f) := by
  rw [Action.handle_eq_andThen]
  exact h.andThen hf

/-- What an action begins with decides what it does. -/
theorem apply_eq (h : Opens x y) {s t : σ} (hx : x s = x t) : y s = y t := by
  obtain ⟨k, rfl, -⟩ := h
  rw [Action.andThen_apply, Action.andThen_apply, hx]

theorem result_of_error (h : Opens x y) {s : σ} {e : Failure} (hx : (x s).result = .error e) :
    (y s).result = .error e ∧ (y s).state = (x s).state := by
  obtain ⟨k, rfl, hk⟩ := h
  rw [Action.andThen_apply, hx]
  exact hk e (x s).state

end Opens

/-- The action begins with the request, which asks for rows or for changes. -/
def Request.Opens {σ α : Type} (r : Request) (e : Engine σ) (y : Action σ α) : Prop :=
  Tabular.Opens (r.query e) y ∨ Tabular.Opens (r.execute e) y

theorem Table.opens_insert {ρ σ : Type} (t : Table ρ) (e : Engine σ) (row : Record) :
    Opens ((t.request (Statement.insert t.name row) false).query e) (t.insert e row) :=
  (Opens.refl _).bind _

/-- A call that speaks begins with a request. -/
theorem Call.opens {α : Type} {c : Call α} (h : c.Speaks) :
    ∃ r : Request, ∀ {σ : Type} (e : Engine σ), r.Opens e (c.perform e) := by
  obtain ⟨hrefusal, hstatements⟩ := h
  cases c with
  | selectAs t decode p q =>
    exact ⟨t.request (Statement.select t.name none p q) q.debug,
      fun e => .inl ((Opens.refl _).bind _)⟩
  | selectOneAs t decode p q =>
    refine ⟨t.request (Statement.select t.name none p q.limited) q.debug, fun e => .inl ?_⟩
    show Opens _ (t.fetchOne e none decode p q)
    rw [Table.fetchOne_of_limit hrefusal]
    exact ((Opens.refl _).bind _).bind _
  | count t p q =>
    exact ⟨t.request (Statement.count t.name p) q.debug, fun e => .inl ((Opens.refl _).bind _)⟩
  | insert t row =>
    exact ⟨t.request (Statement.insert t.name row) false, fun e => .inl (t.opens_insert e row)⟩
  | insertMany t rows =>
    cases rows with
    | nil => exact absurd rfl hstatements
    | cons row rows =>
      refine ⟨t.request (Statement.insert t.name row) false, fun e => .inl ?_⟩
      show Opens _ (t.insertMany e (row :: rows))
      rw [Table.insertMany_of_limit hrefusal]
      -- a row that fails is reported, and its failure ends the batch
      exact ((t.opens_insert e row).handle fun _ _ => ⟨rfl, rfl⟩).bind _
  | update t m p =>
    cases hm : m.clause with
    | error failure =>
      rw [refusal, hm] at hrefusal
      cases hrefusal
    | ok a =>
      refine ⟨t.request (Statement.update t.name a p) false, fun e => .inr ?_⟩
      show Opens _ (t.update e m p)
      rw [Table.update_of_ok hm, Table.execute_request]
      exact Opens.refl _
  | delete t p =>
    refine ⟨t.request (Statement.delete t.name p) false, fun e => .inr ?_⟩
    rw [Table.execute_request]
    exact (Opens.refl _).bind _
  | joinAs j decode p q =>
    exact ⟨j.primary.request (Statement.select j.primary.name (some j.clause) p q) q.debug,
      fun e => .inl ((Opens.refl _).bind _)⟩
  | joinOneAs j decode p q =>
    refine ⟨j.primary.request (Statement.select j.primary.name (some j.clause) p q.limited) q.debug,
      fun e => .inl ?_⟩
    show Opens _ (j.primary.fetchOne e (some j.clause) decode p q)
    rw [Table.fetchOne_of_limit hrefusal]
    exact ((Opens.refl _).bind _).bind _

/-- A call that speaks depends on no more than what its engine is once it is ready. -/
theorem Call.perform_congr {σ α : Type} {c : Call α} (h : c.Speaks) {e : Engine σ} {s t : σ}
    (hst : e.prepare s = e.prepare t) : c.perform e s = c.perform e t := by
  obtain ⟨r, hr⟩ := c.opens h
  rcases hr e with hquery | hexecute
  · refine hquery.apply_eq ?_
    rw [r.query_apply, r.query_apply, hst]
  · refine hexecute.apply_eq ?_
    rw [r.execute_apply, r.execute_apply, hst]

/-! ## Engines that are down -/

/-- The engine fails at every statement and does nothing else. -/
structure Engine.Down {σ : Type} (e : Engine σ) (failure : Failure) (s : σ) : Prop where
  run_eq : ∀ text params, e.run text params s = ⟨.error failure, s, []⟩
  all_eq : ∀ text params, e.all text params s = ⟨.error failure, s, []⟩

/-- The statements that a call hands to its engine. -/
def Call.attempts {σ α : Type} (c : Call α) (e : Engine σ) (s : σ) : List Delivery :=
  (c.perform e.watched ⟨s, [], []⟩).state.sent

namespace Engine.Down

variable {σ : Type} {e : Engine σ} {failure : Failure} {s : σ}

/-- A request to an engine that is down is sent once and fails. -/
theorem query_watched (h : e.Down failure (e.prepare s).1) (r : Request) :
    let outcome := r.query e.watched ⟨s, [], []⟩
    outcome.result = .error failure ∧ outcome.state.inner = (e.prepare s).1 ∧
      outcome.state.sent.length = 1 := by
  dsimp only
  rw [r.query_apply]
  dsimp only [Engine.watched]
  rw [h.all_eq]
  exact ⟨rfl, rfl, rfl⟩

theorem execute_watched (h : e.Down failure (e.prepare s).1) (r : Request) :
    let outcome := r.execute e.watched ⟨s, [], []⟩
    outcome.result = .error failure ∧ outcome.state.inner = (e.prepare s).1 ∧
      outcome.state.sent.length = 1 := by
  dsimp only
  rw [r.execute_apply]
  dsimp only [Engine.watched]
  rw [h.run_eq]
  exact ⟨rfl, rfl, rfl⟩

end Engine.Down

/-- A call that speaks hands one statement to an engine that is down even when it has got as ready
as it can, fails as the engine does, and leaves the engine so. -/
theorem Call.perform_of_down {σ α : Type} {c : Call α} (h : c.Speaks) {e : Engine σ}
    {failure : Failure} {s : σ} (hdown : e.Down failure (e.prepare s).1) :
    (c.perform e s).result = .error failure ∧ (c.perform e s).state = (e.prepare s).1 ∧
      (c.attempts e s).length = 1 := by
  have hwatched : (c.perform e.watched ⟨s, [], []⟩).result = .error failure ∧
      (c.perform e.watched ⟨s, [], []⟩).state.inner = (e.prepare s).1 ∧
      (c.attempts e s).length = 1 := by
    unfold attempts
    obtain ⟨r, hr⟩ := c.opens h
    rcases hr e.watched with hquery | hexecute
    · obtain ⟨hresult, houtcome⟩ := hdown.query_watched r
      obtain ⟨hfails, hstate⟩ := hquery.result_of_error hresult
      rw [hstate]
      exact ⟨hfails, houtcome⟩
    · obtain ⟨hresult, houtcome⟩ := hdown.execute_watched r
      obtain ⟨hfails, hstate⟩ := hexecute.result_of_error hresult
      rw [hstate]
      exact ⟨hfails, houtcome⟩
  obtain ⟨hresult, hstate, -⟩ := c.perform_watched e ⟨s, [], []⟩
  rw [hresult, hstate] at hwatched
  exact hwatched

end Tabular
