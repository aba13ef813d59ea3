import Tabular.Binary.Double
import Tabular.Calendar.Canonical
import Tabular.Text.Bytes

/-!
# Column values

The values of parameters and of row fields.

- Views (`Value.integer?`, `Value.bool?`, …) give the content of a value that has the kind asked
  for, or one that stands for it.
- `a == b`: same kind and equal content; reals are compared as numbers, so NaN equals nothing.
- `Value.encoded`: how instants are kept as text.
-/

namespace Tabular

/-- A single column value. -/
inductive Value where
  | null
  | integer (n : Int64)
  | real (x : Double)
  | text (s : String)
  | bool (b : Bool)
  | blob (bytes : Bytes)
  | timestamp (t : Instant)
deriving DecidableEq

/-- The kinds of values. -/
inductive Kind where
  | null
  | integer
  | real
  | text
  | bool
  | blob
  | timestamp
deriving DecidableEq

/-- The name of a kind. -/
def Kind.name : Kind → String
  | null => "null"
  | integer => "integer"
  | real => "real"
  | text => "text"
  | bool => "bool"
  | blob => "blob"
  | timestamp => "timestamp"

namespace Value

/-- The kind of a value. -/
def kind : Value → Kind
  | null => .null
  | integer _ => .integer
  | real _ => .real
  | text _ => .text
  | bool _ => .bool
  | blob _ => .blob
  | timestamp _ => .timestamp

/-- The value is null. -/
def isNull (v : Value) : Bool := v.kind == .null

/-- The content of an integer. -/
def integer? : Value → Option Int64
  | integer n => some n
  | _ => none

/-- The number of a real or, rounded, of an integer. -/
def real? : Value → Option Double
  | real x => some x
  | integer n => some (Double.ofInt n.toInt)
  | _ => none

/-- The content of a text. -/
def text? : Value → Option String
  | text s => some s
  | _ => none

/-- The content of a bool; the integers zero and one stand for false and true. -/
def bool? : Value → Option Bool
  | bool b => some b
  | integer n => if n = 0 then some false else if n = 1 then some true else none
  | _ => none

/-- The content of a blob. -/
def blob? : Value → Option Bytes
  | blob bytes => some bytes
  | _ => none

/-- The content of a timestamp. -/
def timestamp? : Value → Option Instant
  | timestamp t => some t
  | _ => none

/-- Same kind and equal content. -/
protected def beq : Value → Value → Bool
  | null, null => true
  | integer m, integer n => m == n
  | real x, real y => x == y
  | text s, text t => s == t
  | bool a, bool b => a == b
  | blob a, blob b => a == b
  | timestamp t, timestamp u => t == u
  | _, _ => false

instance : BEq Value := ⟨Value.beq⟩

/-- The form that a value is kept in: instants as canonical text. -/
def encoded : Value → Value
  | timestamp t => text t.canonical
  | v => v

end Value

/-- An operand of arithmetic. -/
inductive Number where
  | integer (n : Int64)
  | real (x : Double)
deriving DecidableEq

/-- The value of an operand. -/
def Number.toValue : Number → Value
  | integer n => .integer n
  | real x => .real x

end Tabular
