import Tabular.Engine

/-!
# Recorders

An engine that keeps the statements it receives and answers them from a list.
-/

namespace Tabular

/-- An answer to a statement. -/
structure Reply where
  /-- The failure in place of any answer. -/
  failure : Option Failure := none
  rows : List Record := []
  changes : Nat := 0

/-- A statement with its parameters. -/
structure Delivery where
  text : String
  params : List Value

/-- The answers still to give, and the statements received. -/
structure Recorder where
  placeholder : Placeholder
  replies : List Reply
  received : List Delivery := []

namespace Recorder

/-- Takes a statement and the next answer; when there is none, no rows and no changes. -/
def deliver (text : String) (params : List Value) : Action Recorder Reply := fun r =>
  let reply := r.replies.headD {}
  let result := match reply.failure with
    | some e => .error e
    | none => .ok reply
  ⟨result, { r with replies := r.replies.tail, received := r.received ++ [⟨text, params⟩] }, []⟩

/-- The engine of recorders. -/
def engine : Engine Recorder where
  placeholder r := r.placeholder
  run text params := return (← deliver text params).changes
  all text params := return (← deliver text params).rows

end Recorder

end Tabular
