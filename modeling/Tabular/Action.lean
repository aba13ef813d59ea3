import Tabular.Log

/-!
# Actions

A computation over the state of a connection that may fail and that reports events. A failure
undoes nothing: the state and the events up to it remain.
-/

namespace Tabular

/-- What an action leaves behind. -/
structure Outcome (σ α : Type) where
  result : Except Failure α
  state : σ
  events : List Event

/-- A computation over a state. -/
def Action (σ α : Type) : Type := σ → Outcome σ α

namespace Action

variable {σ α β : Type}

/-- The action that gives a result and does nothing else. -/
protected def pure (a : α) : Action σ α := fun s => ⟨.ok a, s, []⟩

/-- One action and then, if it succeeds, another. -/
protected def bind (x : Action σ α) (f : α → Action σ β) : Action σ β := fun s =>
  match x s with
  | ⟨.ok a, s, es⟩ =>
    let r := f a s
    ⟨r.result, r.state, es ++ r.events⟩
  | ⟨.error e, s, es⟩ => ⟨.error e, s, es⟩

instance : Monad (Action σ) where
  pure := Action.pure
  bind := Action.bind

/-- The action that fails. -/
def fail (e : Failure) : Action σ α := fun s => ⟨.error e, s, []⟩

/-- An action and, if it fails, another in the state that it leaves. -/
def handle (x : Action σ α) (f : Failure → Action σ α) : Action σ α := fun s =>
  match x s with
  | ⟨.ok a, s, es⟩ => ⟨.ok a, s, es⟩
  | ⟨.error e, s, es⟩ =>
    let r := f e s
    ⟨r.result, r.state, es ++ r.events⟩

instance : MonadExceptOf Failure (Action σ) where
  throw := fail
  tryCatch := handle

/-- The action that gives the state. -/
def state : Action σ σ := fun s => ⟨.ok s, s, []⟩

/-- The action that reports an event. -/
def emit (e : Event) : Action σ Unit := fun s => ⟨.ok (), s, [e]⟩

/-- The action that gives a result or fails, whatever the state. -/
def ofExcept (r : Except Failure α) : Action σ α := fun s => ⟨r, s, []⟩

/-- The action whose failure is a result. -/
def attempt (x : Action σ α) : Action σ (Except Failure α) := fun s =>
  let r := x s
  ⟨.ok r.result, r.state, r.events⟩

instance : LawfulMonad (Action σ) := LawfulMonad.mk' (Action σ)
  (by
    intro α x
    funext s
    show Action.bind x (fun a => Action.pure (id a)) s = x s
    unfold Action.bind
    rcases x s with ⟨_ | _, _, _⟩ <;> simp [Action.pure])
  (by
    intro α β x f
    funext s
    show Action.bind (Action.pure x) f s = f x s
    simp [Action.bind, Action.pure])
  (by
    intro α β γ x f g
    funext s
    show Action.bind (Action.bind x f) g s = Action.bind x (fun a => Action.bind (f a) g) s
    unfold Action.bind
    rcases x s with ⟨_ | a, t, es⟩
    · rfl
    · rcases h : f a t with ⟨_ | b, u, fs⟩ <;> simp [h])

end Action

end Tabular
