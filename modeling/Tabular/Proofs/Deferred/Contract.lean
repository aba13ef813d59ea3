import Tabular.Proofs.Deferred.Session

/-!
# Tries to come up

What the uses of a deferred connection make of the tries to bring it up, for any outcomes of the
tries and any uses before.

- `Deferred.Use`: the uses. Two of them bring the connection up, the others send a statement.
- `Deferred.Tried`: the tries so far have failed, the last one excepted if the connection is up.
- `Deferred.Contract`: a use is done on the connection, after one try if it is not up.
- `Deferred.contract_uses`: **every use keeps the contract, except for a statement that is sent
  while the connection is not up**: there is no try for it. A statement for which the connection gets
  ready first keeps the contract.
-/

namespace Tabular

/-- Tries with these outcomes, one after another. -/
def Initializer.ofOutcomes {σ : Type} (outcomes : Nat → Except Failure σ) : Initializer Nat σ :=
  fun n => (outcomes n, n + 1)

theorem Initializer.ofOutcomes_of_eq {σ : Type} {outcomes : Nat → Except Failure σ} {n : Nat}
    {result : Except Failure σ} (h : outcomes n = result) :
    ofOutcomes outcomes n = (result, n + 1) := by
  rw [ofOutcomes, h]

namespace Deferred

/-- A use of a deferred connection. -/
inductive Use where
  | bringUp
  | prepare
  | run (text : String) (params : List Value)
  | all (text : String) (params : List Value)

namespace Use

/-- What a use gives if it succeeds. -/
def Result : Use → Type
  | bringUp => Unit
  | prepare => Unit
  | run _ _ => Nat
  | all _ _ => List Record

/-- The use sends a statement. -/
def IsStatement : Use → Prop
  | bringUp => False
  | prepare => False
  | run _ _ => True
  | all _ _ => True

variable {σ : Type}

/-- A use of a deferred connection. -/
def perform {ι : Type} (init : Initializer ι σ) (inner : Engine σ) :
    (u : Use) → Action (Deferred ι σ) u.Result
  | bringUp => Deferred.bringUp init
  | prepare => (engine init inner).ready
  | run text params => (engine init inner).run text params
  | all text params => (engine init inner).all text params

/-- What a use does on a connection that is there. -/
def direct (inner : Engine σ) : (u : Use) → Action σ u.Result
  | bringUp => fun s => ⟨.ok (), s, []⟩
  | prepare => fun s => ⟨.ok (), s, []⟩
  | run text params => inner.run text params
  | all text params => inner.all text params

/-- How a use ends whose try has failed. -/
def missed {τ : Type} (failure : Failure) (d : τ) : (u : Use) → Outcome τ u.Result
  | bringUp => ⟨.error failure, d, []⟩
  | prepare => ⟨.ok (), d, [.initializationFailed failure]⟩
  | run _ _ => ⟨.error .uninitialized, d, [.initializationFailed failure]⟩
  | all _ _ => ⟨.error .uninitialized, d, [.initializationFailed failure]⟩

@[simp] theorem state_missed {τ : Type} (failure : Failure) (d : τ) (u : Use) :
    (u.missed failure d).state = d := by
  cases u with
  | bringUp => rfl
  | prepare => rfl
  | run text params => rfl
  | all text params => rfl

theorem missed_of_isStatement {τ : Type} {u : Use} (hu : u.IsStatement) (failure : Failure)
    (d : τ) :
    u.missed failure d = ⟨.error .uninitialized, d, [.initializationFailed failure]⟩ := by
  cases u with
  | bringUp => exact hu.elim
  | prepare => exact hu.elim
  | run text params => rfl
  | all text params => rfl

/-- A deferred connection after uses of it. -/
def after {ι : Type} (init : Initializer ι σ) (inner : Engine σ) (d : Deferred ι σ)
    (uses : List Use) : Deferred ι σ :=
  uses.foldl (fun d u => (u.perform init inner d).state) d

end Use

variable {σ : Type}

/-- The outcome of an action on the connection for the deferred connection. -/
def holding {ι α : Type} (d : Deferred ι σ) (r : Outcome σ α) : Outcome (Deferred ι σ) α :=
  ⟨r.result, { d with handle := some r.state }, r.events⟩

/-- The contract of a deferred connection for a use of it. -/
inductive Contract (outcomes : Nat → Except Failure σ) (inner : Engine σ) (d : Deferred Nat σ)
    (u : Use) : Outcome (Deferred Nat σ) u.Result → Prop where
  /-- On a connection that is up the use is made without a try. -/
  | up {s : σ} (hup : d.handle = some s) :
    Contract outcomes inner d u (d.holding (u.direct inner s))
  /-- There is one try, it succeeds, and the use is made on the connection. -/
  | comesUp {s : σ} (hdown : d.handle = none) (hok : outcomes d.source = .ok s) :
    Contract outcomes inner d u
      (holding ⟨d.source + 1, none, d.tries + 1⟩ (u.direct inner s))
  /-- There is one try and it fails: now, and only now, a statement fails as uninitialized. -/
  | failed {failure : Failure} (hdown : d.handle = none)
      (herror : outcomes d.source = .error failure) :
    Contract outcomes inner d u (u.missed failure ⟨d.source + 1, none, d.tries + 1⟩)

/-- The tries so far, all counted, have failed, except for the last one if the connection is up. -/
inductive Tried (outcomes : Nat → Except Failure σ) : Deferred Nat σ → Prop where
  | down {n : Nat} (hfailed : ∀ k < n, ∃ failure, outcomes k = .error failure) :
    Tried outcomes ⟨n, none, n⟩
  | up {n : Nat} {first s : σ} (hfailed : ∀ k < n, ∃ failure, outcomes k = .error failure)
      (hok : outcomes n = .ok first) : Tried outcomes ⟨n + 1, some s, n + 1⟩

section

variable {outcomes : Nat → Except Failure σ} {inner : Engine σ} {d : Deferred Nat σ} {u : Use}

theorem bringUp_up {ι : Type} {init : Initializer ι σ} {d : Deferred ι σ} {s : σ}
    (h : d.handle = some s) : bringUp init d = ⟨.ok (), d, []⟩ := by
  simp only [bringUp, tryOnce, h]

theorem bringUp_of_ok {ι : Type} {init : Initializer ι σ} {d : Deferred ι σ} (h : d.handle = none)
    {s : σ} {source : ι} (hinit : init d.source = (.ok s, source)) :
    bringUp init d = ⟨.ok (), ⟨source, some s, d.tries + 1⟩, []⟩ := by
  simp only [bringUp, tryOnce, h, hinit]

theorem bringUp_of_error {ι : Type} {init : Initializer ι σ} {d : Deferred ι σ}
    (h : d.handle = none) {failure : Failure} {source : ι}
    (hinit : init d.source = (.error failure, source)) :
    bringUp init d = ⟨.error failure, ⟨source, none, d.tries + 1⟩, []⟩ := by
  simp only [bringUp, tryOnce, h, hinit]

/-- A use of a connection that is up does on the connection what it does there. -/
theorem Use.perform_up {ι : Type} (init : Initializer ι σ) (u : Use) {d : Deferred ι σ} {s : σ}
    (h : d.handle = some s) : u.perform init inner d = d.holding (u.direct inner s) := by
  have hd : ({ d with handle := some s } : Deferred ι σ) = d := by rw [← h]
  cases u with
  | bringUp =>
    rw [perform, bringUp_up h, holding, direct]
    dsimp only
    rw [hd]
    rfl
  | prepare =>
    rw [perform, Request.ready_apply, prepare_up h, holding, direct]
    dsimp only
    rw [hd]
    rfl
  | run text params => exact run_up h text params
  | all text params => exact all_up h text params

/-- A statement fails without a try on a connection that is not up. -/
theorem Use.perform_of_down {ι : Type} {init : Initializer ι σ} {d : Deferred ι σ}
    (hu : u.IsStatement) (h : d.handle = none) :
    u.perform init inner d = ⟨.error .uninitialized, d, []⟩ := by
  cases u with
  | bringUp => exact hu.elim
  | prepare => exact hu.elim
  | run text params => exact (down_of_none h).run_eq text params
  | all text params => exact (down_of_none h).all_eq text params

theorem contract_up (h : d.isReady = true) :
    Contract outcomes inner d u (u.perform (.ofOutcomes outcomes) inner d) := by
  obtain ⟨s, hup⟩ := Option.isSome_iff_exists.mp h
  rw [u.perform_up _ hup]
  exact .up hup

/-- A use that is to bring the connection up keeps the contract. -/
theorem contract_of_not_isStatement (hu : ¬ u.IsStatement) :
    Contract outcomes inner d u (u.perform (.ofOutcomes outcomes) inner d) := by
  cases hhandle : d.handle with
  | some s => exact contract_up (Option.isSome_iff_exists.mpr ⟨s, hhandle⟩)
  | none =>
    cases u with
    | run text params => exact absurd trivial hu
    | all text params => exact absurd trivial hu
    | bringUp =>
      rw [Use.perform]
      cases houtcome : outcomes d.source with
      | ok s =>
        rw [bringUp_of_ok hhandle (Initializer.ofOutcomes_of_eq houtcome)]
        exact .comesUp hhandle houtcome
      | error failure =>
        rw [bringUp_of_error hhandle (Initializer.ofOutcomes_of_eq houtcome)]
        exact .failed hhandle houtcome
    | prepare =>
      rw [Use.perform, Request.ready_apply]
      cases houtcome : outcomes d.source with
      | ok s =>
        rw [prepare_of_ok hhandle (Initializer.ofOutcomes_of_eq houtcome)]
        exact .comesUp hhandle houtcome
      | error failure =>
        rw [prepare_of_error hhandle (Initializer.ofOutcomes_of_eq houtcome)]
        exact .failed hhandle houtcome

/-- A statement for which the connection gets ready first keeps the contract. -/
theorem contract_ready_then (hu : u.IsStatement) :
    Contract outcomes inner d u
      (((engine (.ofOutcomes outcomes) inner).ready >>= fun _ =>
        u.perform (.ofOutcomes outcomes) inner) d) := by
  rw [Action.bind_eq_andThen, Action.andThen_apply, Request.ready_apply]
  dsimp only [Action.onOk]
  cases hhandle : d.handle with
  | some s =>
    rw [prepare_up hhandle]
    exact contract_up (Option.isSome_iff_exists.mpr ⟨s, hhandle⟩)
  | none =>
    cases houtcome : outcomes d.source with
    | ok s =>
      rw [prepare_of_ok hhandle (Initializer.ofOutcomes_of_eq houtcome), u.perform_up _ rfl]
      exact .comesUp hhandle houtcome
    | error failure =>
      rw [prepare_of_error hhandle (Initializer.ofOutcomes_of_eq houtcome), u.perform_of_down hu rfl]
      have hmissed := Use.missed_of_isStatement hu failure
        (⟨d.source + 1, none, d.tries + 1⟩ : Deferred Nat σ)
      exact hmissed ▸ .failed hhandle houtcome

/-- A use that keeps the contract keeps account of the tries. -/
theorem Contract.tried {r : Outcome (Deferred Nat σ) u.Result} (h : Tried outcomes d)
    (hr : Contract outcomes inner d u r) : Tried outcomes r.state := by
  cases hr with
  | up hup =>
    cases h with
    | down hfailed => cases hup
    | up hfailed hok => exact .up hfailed hok
  | comesUp hdown hok =>
    cases h with
    | down hfailed => exact .up hfailed hok
    | up hfailed hok' => cases hdown
  | failed hdown herror =>
    cases h with
    | up hfailed hok => cases hdown
    | @down n hfailed =>
      have hall : ∀ k < n + 1, ∃ failure, outcomes k = .error failure := by
        intro k hk
        rcases Nat.lt_succ_iff_lt_or_eq.mp hk with hk | rfl
        · exact hfailed k hk
        · exact ⟨_, herror⟩
      rw [Use.state_missed]
      exact .down hall

/-- A use, whatever it is, keeps account of the tries. -/
theorem tried_perform (h : Tried outcomes d) (u : Use) :
    Tried outcomes (u.perform (.ofOutcomes outcomes) inner d).state := by
  by_cases hkept : d.isReady = true ∨ ¬ u.IsStatement
  · rcases hkept with hup | hu
    · exact (contract_up hup).tried h
    · exact (contract_of_not_isStatement hu).tried h
  · obtain ⟨hdown, hu⟩ := not_or.mp hkept
    rw [u.perform_of_down (Classical.not_not.mp hu) (Option.not_isSome_iff_eq_none.mp hdown)]
    exact h

theorem tried_after (h : Tried outcomes d) (uses : List Use) :
    Tried outcomes (Use.after (.ofOutcomes outcomes) inner d uses) := by
  induction uses generalizing d with
  | nil => exact h
  | cons u uses ih => exact ih (tried_perform h u)

end

/-- **Every use of a deferred connection keeps the contract, except for a statement that is sent while
the connection is not up.** Whatever the outcomes of the tries and whatever the uses before, all tries
have failed but the last one if the connection is up, and then there are none any more. To bring the
connection up, or to have it get ready, takes one try if it is not up. A statement that is sent while
it is not up fails as uninitialized, with no try, and leaves everything as it is; if the connection
gets ready first, the statement fails so only if that one try fails, and otherwise does what it does
on the connection. -/
theorem contract_uses (outcomes : Nat → Except Failure σ) (inner : Engine σ) (before : List Use)
    (u : Use) :
    let init := Initializer.ofOutcomes outcomes
    let d := Use.after init inner ⟨0, none, 0⟩ before
    Tried outcomes d ∧
      (d.isReady = true ∨ ¬ u.IsStatement → Contract outcomes inner d u (u.perform init inner d)) ∧
      (d.isReady = false → u.IsStatement →
        u.perform init inner d = ⟨.error .uninitialized, d, []⟩) ∧
      (u.IsStatement → Contract outcomes inner d u
        (((engine init inner).ready >>= fun _ => u.perform init inner) d)) := by
  refine ⟨tried_after (.down fun k hk => absurd hk k.not_lt_zero) before, ?kept, ?down,
    contract_ready_then⟩
  case kept =>
    rintro (hup | hu)
    · exact contract_up hup
    · exact contract_of_not_isStatement hu
  case down =>
    intro hdown hu
    exact u.perform_of_down hu (Option.isNone_iff_eq_none.mp (Option.isSome_eq_false_iff.mp hdown))

/-- The first try fails, and every later one succeeds. -/
def sampledOutcomes : Nat → Except Failure Recorder
  | 0 => .error (.storage (.reported "down"))
  | _ + 1 => .ok ⟨.numbered, [{ changes := 2 }], []⟩

theorem contract_uses_sampled :
    let init := Initializer.ofOutcomes sampledOutcomes
    let d := Use.after init Recorder.engine ⟨0, none, 0⟩
      [.run "DELETE FROM scores" [], .prepare, .all "SELECT 1" []]
    let u := Use.run "DELETE FROM scores" []
    d.isReady = false ∧ u.IsStatement ∧ d.tries = 1 ∧ Tried sampledOutcomes d ∧
      u.perform init Recorder.engine d = ⟨.error .uninitialized, d, []⟩ ∧
      Contract sampledOutcomes Recorder.engine d .bringUp
        (Use.bringUp.perform init Recorder.engine d) ∧
      Contract sampledOutcomes Recorder.engine d u
        (((engine init Recorder.engine).ready >>= fun _ => u.perform init Recorder.engine) d) := by
  obtain ⟨htried, -, hdown, hready⟩ := contract_uses sampledOutcomes Recorder.engine
    [.run "DELETE FROM scores" [], .prepare, .all "SELECT 1" []] (.run "DELETE FROM scores" [])
  obtain ⟨-, hkept, -⟩ := contract_uses sampledOutcomes Recorder.engine
    [.run "DELETE FROM scores" [], .prepare, .all "SELECT 1" []] .bringUp
  exact ⟨rfl, trivial, rfl, htried, hdown rfl trivial, hkept (.inr id), hready trivial⟩

/-- A statement that is sent to a connection for which nothing has been tried breaks the contract:
there is no try, which would have succeeded. -/
theorem contract_untried :
    let outcomes : Nat → Except Failure Recorder := fun _ => .ok ⟨.numbered, [], []⟩
    let r := (Use.run "DELETE FROM scores" []).perform (.ofOutcomes outcomes) Recorder.engine
      ⟨0, none, 0⟩
    r = ⟨.error .uninitialized, ⟨0, none, 0⟩, []⟩ ∧
      ¬ Contract outcomes Recorder.engine ⟨0, none, 0⟩ (.run "DELETE FROM scores" []) r := by
  dsimp only
  refine ⟨rfl, ?_⟩
  intro h
  generalize hr : (Use.run "DELETE FROM scores" []).perform _ Recorder.engine ⟨0, none, 0⟩ = r at h
  cases h with
  | up hup => cases hup
  | comesUp hdown hok =>
    have htries : 0 = 1 := congrArg (fun r => r.state.tries) hr
    cases htries
  | failed hdown herror => cases herror

end Deferred

end Tabular
