import Tabular.Failure

/-!
# Log events

What operations report about themselves. Statement text is reported, parameter values never are.

- `Event`: the events.
- `Event.target`, `Event.level`, `Event.fields`: how an event is handed to a log.
-/

namespace Tabular

/-- The levels of a log, the most severe first. -/
inductive Level where
  | error
  | warn
  | info
  | debug
  | trace
deriving DecidableEq

/-- The name of a level. -/
def Level.name : Level → String
  | error => "ERROR"
  | warn => "WARN"
  | info => "INFO"
  | debug => "DEBUG"
  | trace => "TRACE"

/-- What is reported. -/
inductive Event where
  /-- A statement is about to be sent. -/
  | statement (level : Level) (table : String) (parameters : Nat) (text : String)
  /-- A batch of `total` rows ended at the row with this index. -/
  | batchStopped (table : String) (index total : Nat) (failure : Failure)
  /-- A deferred connection did not come up. -/
  | initializationFailed (failure : Failure)
  /-- An open connection ended. -/
  | connectionLost
deriving DecidableEq

namespace Event

/-- The part of the library that reports. -/
def target : Event → String
  | statement .. | batchStopped .. => "rowsmith.sql"
  | initializationFailed _ | connectionLost => "rowsmith.connection"

/-- The level of an event. -/
def level : Event → Level
  | statement level .. => level
  | batchStopped .. => .warn
  | initializationFailed _ => .debug
  | connectionLost => .error

/-- The fields of an event as texts. -/
def fields : Event → List (String × String)
  | statement _ table parameters text =>
    [("table", table), ("param_count", toString parameters), ("sql", text)]
  | batchStopped table index total failure =>
    [("message", "insert_many stopped"), ("table", table), ("index", toString index),
      ("total", toString total), ("error", failure.message)]
  | initializationFailed failure =>
    [("message", "lazy connection initialization failed"), ("error", failure.message)]
  | connectionLost =>
    [("message", "connection error"), ("error", "error communicating with the server")]

end Event

end Tabular
