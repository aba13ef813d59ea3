import Tabular.Engine.Recorder
import Tabular.Proofs.Accessor.Call
import Tabular.Proofs.Record.Decoding

/-!
# Watching an engine

An engine together with the record of what has been said between it and its accessors.

- `Watched`, `Engine.watched`: the engine with its record. Watching changes nothing of what a call
  does (`Call.perform_watched`).
- `Request.query_apply`, `Request.execute_apply`: what becomes of a request, step by step.
-/

namespace Tabular

/-! ## Requests step by step -/

namespace Request

variable {σ : Type}

/-- What is logged of a request. -/
def report (r : Request) (debug : Bool) (text : String) : List Event :=
  if debug || r.settings.logStatements then
    [.statement r.settings.level r.table r.statement.params.length (r.settings.logged text)]
  else []

theorem bind_apply {α β : Type} (x : Action σ α) (f : α → Action σ β) (s : σ) :
    (x >>= f) s = match x s with
      | ⟨.ok a, t, es⟩ => ⟨(f a t).result, (f a t).state, es ++ (f a t).events⟩
      | ⟨.error e, t, es⟩ => ⟨.error e, t, es⟩ := rfl

theorem log_apply (r : Request) (debug : Bool) (text : String) (s : σ) :
    r.sender.log text r.statement.params.length debug s = ⟨.ok (), s, r.report debug text⟩ := by
  unfold Table.log report sender
  dsimp only
  split
  · rfl
  · rfl

theorem ready_apply (e : Engine σ) (s : σ) :
    e.ready s = ⟨.ok (), (e.prepare s).1, (e.prepare s).2⟩ := rfl

theorem render_apply (e : Engine σ) (a : Fragment) (s : σ) :
    e.render a s = ⟨.ok (a.render (e.placeholder s)), s, []⟩ := rfl

/-- The engine gets ready, the statement is rendered as the engine then asks for, it is logged, and
the engine answers. -/
theorem query_apply (r : Request) (e : Engine σ) (s : σ) :
    r.query e s =
      let t := (e.prepare s).1
      let text := r.statement.render (e.placeholder t)
      let answer := e.all text r.statement.params t
      ⟨answer.result.map (List.map Record.decoded), answer.state,
        (e.prepare s).2 ++ (r.report r.debug text ++ answer.events)⟩ := by
  unfold query Table.query
  simp only [bind_apply, ready_apply, render_apply, log_apply, List.nil_append]
  rcases e.all _ r.statement.params (e.prepare s).1 with ⟨_ | rows, t, es⟩
  · rfl
  · simp [Except.map, Action.ofExcept, Record.mapM_decode]

theorem execute_apply (r : Request) (e : Engine σ) (s : σ) :
    r.execute e s =
      let t := (e.prepare s).1
      let text := r.statement.render (e.placeholder t)
      let answer := e.run text r.statement.params t
      ⟨answer.result, answer.state,
        (e.prepare s).2 ++ (r.report false text ++ answer.events)⟩ := by
  unfold execute Table.execute
  simp only [bind_apply, ready_apply, render_apply, log_apply, List.nil_append]

end Request

/-! ## The record of an engine -/

/-- What an engine tells its accessor. -/
inductive Told where
  /-- It is as ready as it can be, and asks for these placeholders. -/
  | prepared (style : Placeholder) (events : List Event)
  | changed (result : Except Failure Nat) (events : List Event)
  | answered (result : Except Failure (List Record)) (events : List Event)

/-- A state of an engine with what the engine has told and what it was sent. -/
structure Watched (σ : Type) where
  inner : σ
  told : List Told := []
  sent : List Delivery := []

/-- The engine that does the same and keeps a record. -/
def Engine.watched {σ : Type} (e : Engine σ) : Engine (Watched σ) where
  placeholder w := e.placeholder w.inner
  prepare w :=
    let (s, es) := e.prepare w.inner
    ({ w with inner := s, told := w.told ++ [.prepared (e.placeholder s) es] }, es)
  run text params := fun w =>
    let answer := e.run text params w.inner
    ⟨answer.result, ⟨answer.state, w.told ++ [.changed answer.result answer.events],
      w.sent ++ [⟨text, params⟩]⟩, answer.events⟩
  all text params := fun w =>
    let answer := e.all text params w.inner
    ⟨answer.result, ⟨answer.state, w.told ++ [.answered answer.result answer.events],
      w.sent ++ [⟨text, params⟩]⟩, answer.events⟩

/-- A fragment as it is handed to an engine. -/
def Fragment.delivery (a : Fragment) (style : Placeholder) : Delivery :=
  ⟨a.render style, a.params⟩

namespace Request

variable {σ α : Type}

/-- What a request leaves with a watched engine that is asked by `ask` and answers by `tell`: two
things told, and the statement sent. -/
def exchange (r : Request) (debug : Bool) (e : Engine σ)
    (ask : String → List Value → Action σ α) (tell : Except Failure α → List Event → Told) :
    Action (Watched σ) α := fun w =>
  let t := (e.prepare w.inner).1
  let text := r.statement.render (e.placeholder t)
  let answer := ask text r.statement.params t
  ⟨answer.result,
    ⟨answer.state,
      w.told ++ [.prepared (e.placeholder t) (e.prepare w.inner).2,
        tell answer.result answer.events],
      w.sent ++ [⟨text, r.statement.params⟩]⟩,
    (e.prepare w.inner).2 ++ (r.report debug text ++ answer.events)⟩

theorem query_watched (r : Request) (e : Engine σ) :
    r.query e.watched = do
      let rows ← r.exchange r.debug e e.all .answered
      return rows.map Record.decoded := by
  funext w
  rw [r.query_apply, bind_apply, exchange]
  dsimp only [Engine.watched]
  rcases e.all _ r.statement.params (e.prepare w.inner).1 with ⟨_ | rows, s, es⟩
  · simp [Except.map]
  · simp [Except.map, pure, Action.pure]

theorem execute_watched (r : Request) (e : Engine σ) :
    r.execute e.watched = r.exchange false e e.run .changed := by
  funext w
  rw [r.execute_apply, exchange]
  simp [Engine.watched]

end Request

/-- A call differs from itself in nothing. -/
theorem Call.related_self {R : Request → Request → Prop} (hR : ∀ r, R r r) {α : Type}
    (c : Call α) : c.Related R c := by
  cases c with
  | selectAs t decode p q => exact .selectAs (hR _)
  | selectOneAs t decode p q => exact .selectOneAs rfl (hR _)
  | count t p q => exact .count (hR _)
  | insert t row => exact .insert (.refl t) (hR _)
  | insertMany t rows =>
    exact .insertMany (.refl t) (List.forall₂_same.mpr fun row _ => hR _)
  | update t m p =>
    cases hm : m.clause with
    | error e => exact .refused hm hm
    | ok a => exact .update hm hm (hR _)
  | delete t p => exact .delete (hR _)
  | joinAs j decode p q => exact .joinAs (hR _)
  | joinOneAs j decode p q => exact .joinOneAs rfl (hR _)

/-- An action on the state of an engine and one that does the same to a watched state. -/
def Congruence.watching (σ : Type) : Congruence σ (Watched σ) where
  Rel x y := ∀ w, (y w).result = (x w.inner).result ∧ (y w).state.inner = (x w.inner).state ∧
    (y w).events = (x w.inner).events
  ofExcept _ _ := ⟨rfl, rfl, rfl⟩
  emit _ _ := ⟨rfl, rfl, rfl⟩
  andThen {α β x y k l} hxy hkl w := by
    obtain ⟨hresult, hstate, hevents⟩ := hxy w
    obtain ⟨hresult', hstate', hevents'⟩ := hkl (y w).result (y w).state
    rw [hresult, hstate] at hresult' hstate' hevents'
    -- the second action is told the result of the watched first one, which is the same
    refine ⟨?_, ?_, ?_⟩
    · show (l (y w).result (y w).state).result = _
      rw [hresult]
      exact hresult'
    · show (l (y w).result (y w).state).state.inner = _
      rw [hresult]
      exact hstate'
    · show (y w).events ++ (l (y w).result (y w).state).events = _
      rw [hresult, hevents, hevents']
      rfl

/-- Watching changes nothing of what a call does. -/
theorem Call.perform_watched {σ α : Type} (e : Engine σ) (c : Call α) (w : Watched σ) :
    (c.perform e.watched w).result = (c.perform e w.inner).result ∧
      (c.perform e.watched w).state.inner = (c.perform e w.inner).state ∧
      (c.perform e.watched w).events = (c.perform e w.inner).events := by
  refine (Congruence.watching σ).perform ?query ?execute (c.related_self (R := Eq) fun _ => rfl) w
  case query =>
    rintro r _ rfl v
    rw [r.query_apply, r.query_apply]
    exact ⟨rfl, rfl, rfl⟩
  case execute =>
    rintro r _ rfl v
    rw [r.execute_apply, r.execute_apply]
    exact ⟨rfl, rfl, rfl⟩

end Tabular
