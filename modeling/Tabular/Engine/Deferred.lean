import Tabular.Engine

/-!
# Deferred connections

A connection that comes up on first use. Getting ready tries to bring it up and keeps silent about
a failure, apart from an event; only the use of a connection that is not up fails, and then as
uninitialized. Once up, it stays up.

- `Deferred.bringUp`: brings the connection up and gives the failure if it does not come up.
- `Deferred.engine`: the engine of a deferred connection, made from that of the connection.
-/

namespace Tabular

/-- One try to open a connection, from what earlier tries have left. -/
abbrev Initializer (ι σ : Type) := ι → Except Failure σ × ι

/-- A connection that may not be up yet, with the number of tries so far. -/
structure Deferred (ι σ : Type) where
  source : ι
  handle : Option σ := none
  tries : Nat := 0

namespace Deferred

variable {ι σ α : Type}

/-- The connection is up. -/
def isReady (d : Deferred ι σ) : Bool := d.handle.isSome

/-- One try, if the connection is not up. -/
def tryOnce (init : Initializer ι σ) (d : Deferred ι σ) : Except Failure Unit × Deferred ι σ :=
  match d.handle with
  | some _ => (.ok (), d)
  | none =>
    match init d.source with
    | (.ok s, source) => (.ok (), ⟨source, some s, d.tries + 1⟩)
    | (.error e, source) => (.error e, ⟨source, none, d.tries + 1⟩)

/-- Brings the connection up, or fails as the try failed. -/
def bringUp (init : Initializer ι σ) : Action (Deferred ι σ) Unit := fun d =>
  let (result, d) := d.tryOnce init
  ⟨result, d, []⟩

/-- Fails unless the connection is up. -/
def get : Action (Deferred ι σ) Unit := fun d =>
  ⟨if d.isReady then .ok () else .error .uninitialized, d, []⟩

/-- An action on the connection if it is up. -/
def onHandle (x : Action σ α) : Action (Deferred ι σ) α := fun d =>
  match d.handle with
  | none => ⟨.error .uninitialized, d, []⟩
  | some s =>
    let r := x s
    ⟨r.result, { d with handle := some r.state }, r.events⟩

/-- The engine of a deferred connection. Its placeholders are those of the connection, and question
marks as long as it is not up. -/
def engine (init : Initializer ι σ) (inner : Engine σ) : Engine (Deferred ι σ) where
  placeholder d := (d.handle.map inner.placeholder).getD .question
  prepare d :=
    match d.tryOnce init with
    | (.ok (), d) => (d, [])
    | (.error e, d) => (d, [.initializationFailed e])
  run text params := onHandle (inner.run text params)
  all text params := onHandle (inner.all text params)

end Deferred

end Tabular
