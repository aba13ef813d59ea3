import Tabular.Value

/-!
# Failures

Everything that an operation can fail with, as causes. The wording of all of them is in
`Failure.message` and in the functions it calls.
-/

namespace Tabular

/-- A misuse that is found before anything is sent. -/
inductive ConfigurationFault where
  /-- An update without any assignment. -/
  | noAssignment
  /-- A request for one row under another limit. -/
  | limitNotOne (limit : Nat)
  /-- A batch above the limit of its table. -/
  | batchTooLarge (limit count : Nat)
  /-- No connection string in the environment. -/
  | urlNotSet
  /-- A fault found outside this library, in its own words. -/
  | reported (message : String)
deriving DecidableEq

/-- What a store refused or failed to give. -/
inductive StorageFault where
  /-- An insertion was not answered with the row. -/
  | noRowReturned (table : String)
  /-- A constraint was violated. -/
  | constraint (name code message : String)
  /-- No answer came within the time limit. -/
  | timedOut (seconds : Nat)
  /-- A fault found outside this library, in its own words. -/
  | reported (message : String)
deriving DecidableEq

/-- What went wrong between the client and a PostgreSQL server. -/
inductive QueryFault where
  /-- A connection string that cannot be read. -/
  | connectionString
  /-- Connection settings that name no server, or do not fit together. -/
  | connectionSettings
  /-- No server could be reached. -/
  | unreachable
  /-- The connection has ended. -/
  | closed
  /-- A statement that no message can carry. -/
  | encoding
  /-- A statement was given another number of parameters than it has placeholders. -/
  | parameterCount (expected got : Nat)
  /-- A parameter, counted from zero, does not fit the type of its placeholder. -/
  | parameter (index : Nat)
  /-- The server rejected the statement. -/
  | rejected
  /-- An answer that does not fit what the server announced. -/
  | response
deriving DecidableEq

/-- An integer that does not fit the type it goes to. -/
inductive NarrowingFault where
  | tooLarge
  | tooSmall
deriving DecidableEq

/-- Why a column cannot be decoded. -/
inductive DecodeFault where
  /-- The value has another kind than expected. -/
  | mismatch (expected got : Kind)
  /-- The integer does not fit. -/
  | narrowing (fault : NarrowingFault)
  /-- The bytes of the column, counted from zero, are not of its type. -/
  | cell (index : Nat)
  /-- A fault found outside this library, in its own words. -/
  | reported (message : String)
deriving DecidableEq

/-- Why an operation failed. -/
inductive Failure where
  | format (fault : FormatFault)
  | configuration (fault : ConfigurationFault)
  | storage (fault : StorageFault)
  | query (fault : QueryFault)
  /-- A connection was used before it came up. -/
  | uninitialized
  | decode (column : String) (fault : DecodeFault)
deriving DecidableEq

/-- The wording of a misuse. -/
def ConfigurationFault.message : ConfigurationFault → String
  | noAssignment => "update requires at least one assignment"
  | limitNotOne limit => "select_one requires limit 1, got " ++ toString limit
  | batchTooLarge limit count =>
    "insert_many accepts at most " ++ toString limit ++ " rows, got " ++ toString count
  | urlNotSet => "DATABASE_URL is not set"
  | reported message => message

/-- The wording of a refusal. -/
def StorageFault.message : StorageFault → String
  | noRowReturned table => "insert into " ++ table ++ " returned no row"
  | constraint name code message => name ++ " (" ++ code ++ "): " ++ message
  | timedOut seconds => "connect timed out after " ++ toString seconds ++ "s"
  | reported message => message

/-- The wording of a fault between client and server. -/
def QueryFault.message : QueryFault → String
  | connectionString => "invalid connection string"
  | connectionSettings => "invalid configuration"
  | unreachable => "error connecting to server"
  | closed => "connection closed"
  | encoding => "error encoding message to server"
  | parameterCount expected got =>
    "expected " ++ toString expected ++ " parameters but got " ++ toString got
  | parameter index => "error serializing parameter " ++ toString index
  | rejected => "db error"
  | response => "error parsing response from server"

/-- The wording of a failed narrowing. -/
def NarrowingFault.message : NarrowingFault → String
  | tooLarge => "number too large to fit in target type"
  | tooSmall => "number too small to fit in target type"

/-- The wording of a failed decoding, without its column. -/
def DecodeFault.message : DecodeFault → String
  | mismatch expected got => "expected " ++ expected.name ++ ", got " ++ got.name
  | narrowing fault => fault.message
  | cell index => "error deserializing column " ++ toString index
  | reported message => message

/-- The wording of a failure. -/
def Failure.message : Failure → String
  | format fault => "Format error: " ++ fault.message
  | configuration fault => "Configuration error: " ++ fault.message
  | storage fault => "Storage error: " ++ fault.message
  | query fault => "Query error: " ++ fault.message
  | uninitialized => "Connection not initialized"
  | decode column fault => "Decode error on column '" ++ column ++ "': " ++ fault.message

namespace Failure

/-- Temporal text could not be read. -/
def isFormat : Failure → Bool
  | format _ => true
  | _ => false

/-- The caller misused an operation. -/
def isConfiguration : Failure → Bool
  | configuration _ => true
  | _ => false

/-- The store or the way to it failed. -/
def isStorage : Failure → Bool
  | storage _ | query _ => true
  | _ => false

/-- A connection was used before it came up. -/
def isUninitialized : Failure → Bool
  | uninitialized => true
  | _ => false

end Failure

end Tabular
