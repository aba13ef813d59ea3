import Tabular.Action
import Tabular.Fragment
import Tabular.Record

/-!
# Engines

The store that statements are sent to, as far as accessors can see it: the placeholders that it
expects, a chance to get ready, and the execution of a statement.
-/

namespace Tabular

/-- A store whose connection has states `σ`. -/
structure Engine (σ : Type) where
  /-- The placeholders of the store. -/
  placeholder : σ → Placeholder := fun _ => .question
  /-- Readies the connection as well as it can. It cannot fail: a connection that is not ready
  afterwards says so when it is used. -/
  prepare : σ → σ × List Event := fun s => (s, [])
  /-- Executes a statement and gives the number of rows it changed. -/
  run : String → List Value → Action σ Nat
  /-- Executes a statement and gives the rows of its answer. -/
  all : String → List Value → Action σ (List Record)

namespace Engine

variable {σ : Type}

/-- The preparation of an engine as an action. -/
def ready (engine : Engine σ) : Action σ Unit := fun s =>
  let (s, es) := engine.prepare s
  ⟨.ok (), s, es⟩

/-- The text of a statement for an engine in its present state. -/
def render (engine : Engine σ) (statement : Fragment) : Action σ String := do
  return statement.render (engine.placeholder (← Action.state))

/-- A number of callers that each ready the engine and send the same statement. Calls that meet
while the engine is not ready wait for each other, so that one is served after the other. -/
def serve (engine : Engine σ) (text : String) : Nat → Action σ (List (Except Failure Nat))
  | 0 => return []
  | callers + 1 => do
    let rows ← Action.attempt do
      engine.ready
      engine.all text []
    return rows.map List.length :: (← engine.serve text callers)

end Engine

end Tabular
