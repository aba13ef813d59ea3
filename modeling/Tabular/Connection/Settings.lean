import Tabular.Connection.Target
import Tabular.Engine.Deferred
import Tabular.Json.Reader

/-!
# Connection settings

Where a connection goes to and how long it may take to open.

- `Settings.ofJson`: settings from a configuration document. The document is read up to its first
  fault, and faults of the text are told apart from values that do not suit.
- `Settings.ofEnvironment`: settings from an environment variable.
- `Settings.dial`: what becomes of opening a connection.
-/

namespace Tabular

namespace Connection

/-- A connection string and the most seconds that opening the connection may take. -/
structure Settings where
  url : String
  timeout : Option Nat := none
deriving DecidableEq

/-- Why a document holds no settings. -/
inductive DocumentFault where
  /-- The document is no JSON value. -/
  | text (fault : Json.Fault)
  /-- A field is missing, repeated or of another type. -/
  | unsuitable
deriving DecidableEq

/-- What is answered where a connection is dialled. -/
inductive Peer (σ : Type) where
  /-- Nothing is there. -/
  | absent
  /-- Something is there and never answers. -/
  | silent
  /-- A store answers. -/
  | store (s : σ)

namespace Settings

/-- A reading of JSON text as a reading of settings. -/
def ofReading {α : Type} : Except Json.Fault α → Except DocumentFault α
  | .ok a => .ok a
  | .error e => .error (.text e)

/-- The fault of a value of another type. A number, a word or a string is read to its end first. -/
def otherType : List Char → DocumentFault
  | [] => .text .ended
  | '[' :: _ | '\x7b' :: _ => .unsuitable
  | cs =>
    match Json.readValue 1 0 cs with
    | .ok _ => .unsuitable
    | .error e => .text e

/-- The connection string. -/
def readUrl (cs : List Char) : Except DocumentFault (String × List Char) :=
  match Json.skipBlank cs with
  | '"' :: rest => ofReading (Json.readString rest)
  | cs => .error (otherType cs)

/-- The timeout, a number of 64 bits without sign, or null. -/
def readTimeout (cs : List Char) : Except DocumentFault (Option Nat × List Char) :=
  match Json.skipBlank cs with
  | 'n' :: rest =>
    ofReading ((Json.readWord ['u', 'l', 'l'] rest).map fun rest => (none, rest))
  | [] => .error (.text .ended)
  | c :: rest =>
    if c.isDigit then do
      match ← ofReading (Json.readNumber false (c :: rest)) with
      | (.integer n, rest) => return (some n.toNat, rest)
      | _ => throw .unsuitable
    else .error (otherType (c :: rest))

/-- Settings by position: the connection string and, if there is more, the timeout. -/
def readPositions (cs : List Char) : Except DocumentFault (Settings × List Char) := do
  match ← ofReading (Json.next? ']' .first cs) with
  | (none, _) => throw .unsuitable
  | (some cs, _) =>
    let (url, cs) ← readUrl cs
    match ← ofReading (Json.next? ']' .later cs) with
    | (none, rest) => return (⟨url, none⟩, rest)
    | (some cs, _) =>
      let (timeout, cs) ← readTimeout cs
      match Json.skipBlank cs with
      | [] => throw (.text .ended)
      | ']' :: rest => return (⟨url, timeout⟩, rest)
      | _ => throw (.text .malformed)

/-- Settings by name from the given position on, with the fields read so far. Other names are
passed over with their values. -/
def readNames : Nat → Option String → Option (Option Nat) → Json.Position → List Char →
    Except DocumentFault (Settings × List Char)
  | 0, _, _, _, _ => .error (.text .malformed)
  | fuel + 1, url, timeout, position, cs => do
    match ← ofReading (Json.next? '\x7d' position cs) with
    | (none, rest) =>
      match url with
      | none => throw .unsuitable
      | some url => return (⟨url, timeout.join⟩, rest)
    | (some cs, _) =>
      let (name, cs) ← ofReading (Json.readName cs)
      if name = "url" then
        if url.isSome then throw .unsuitable
        let cs ← ofReading (Json.readColon cs)
        let (url, cs) ← readUrl cs
        readNames fuel (some url) timeout .later cs
      else if name = "connect_timeout_secs" then
        if timeout.isSome then throw .unsuitable
        let cs ← ofReading (Json.readColon cs)
        let (timeout, cs) ← readTimeout cs
        readNames fuel url (some timeout) .later cs
      else
        let cs ← ofReading (Json.readColon cs)
        let cs ← ofReading (Json.skipValue (Json.fuelFor cs) cs)
        readNames fuel url timeout .later cs

/-- The settings of a document: an object of named fields, or a list of them by position. -/
def ofJson (s : String) : Except DocumentFault Settings := do
  let cs := s.toList
  let (settings, rest) ← match Json.skipBlank cs with
    | '[' :: cs => readPositions cs
    | '\x7b' :: cs => readNames (cs.length + 1) none none .first cs
    | cs => .error (otherType cs)
  if Json.skipBlank rest = [] then return settings else throw (.text .malformed)

/-- The settings of an environment variable. Bytes that are no text count as not set. -/
def ofEnvironment (found : Option Bytes) : Except Failure Settings :=
  match found.bind Text.ofUtf8? with
  | some url => .ok ⟨url, none⟩
  | none => .error (.configuration .urlNotSet)

/-- The settings with a time limit, in whole seconds. -/
def withTimeout (settings : Settings) (milliseconds : Nat) : Settings :=
  { settings with timeout := some (milliseconds / 1000) }

/-- What becomes of opening a connection. Settings that name no server are refused before anything
is dialled. A peer that never answers is given up at the time limit; without a limit it is waited
for until it ends the connection. -/
def dial {σ : Type} (settings : Settings) (peer : Peer σ) : Except Failure σ :=
  match Target.ofString? settings.url with
  | none => .error (.query .connectionString)
  | some target =>
    if target.isComplete then
      match peer, settings.timeout with
      | .absent, _ => .error (.query .unreachable)
      | .silent, some seconds => .error (.storage (.timedOut seconds))
      | .silent, none => .error (.query .closed)
      | .store s, _ => .ok s
    else .error (.query .connectionSettings)

/-- A connection that is dialled on first use, and again as long as it has not come up. -/
def initializer {σ : Type} (settings : Settings) : Initializer (Peer σ) σ := fun peer =>
  (settings.dial peer, peer)

end Settings

end Connection

end Tabular
