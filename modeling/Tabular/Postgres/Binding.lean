import Tabular.Failure
import Tabular.Binary.Notation
import Tabular.Postgres.ColumnType
import Tabular.Value.Convert

/-!
# Binding parameters

The binary form of a value for a placeholder of some column type, all numbers most significant byte
first.

- Integers are narrowed to integer columns and rounded to the others; a real goes to an integer
  column if it has no fraction.
- Temporal columns take instants and the texts that denote them, as microseconds or as days since
  2000-01-01.
- Texts go to text columns, instants as canonical text.
- Nothing else fits, apart from null, which fits every type.
-/

namespace Tabular

namespace Postgres

/-- Why a value does not fit a placeholder. -/
inductive BindFault where
  /-- The integer is out of the range of the column. -/
  | narrowing (fault : NarrowingFault)
  /-- The real is no integer of 64 bits. -/
  | notAnInteger (x : Double)
  /-- The text denotes no instant. -/
  | format (fault : FormatFault)
  /-- Values of this kind do not go to this type. -/
  | wrongType (kind : Kind) (type : ColumnType)
deriving DecidableEq

/-- Reals in messages are written without an exponent. -/
def messageReals : RealNotation := ⟨.up, fun _ => true, false⟩

/-- A real as it is written in messages. -/
def realText (x : Double) : String :=
  match messageReals.write? x, x.datum with
  | some cs, _ => String.ofList cs
  | none, .infinite true => "-inf"
  | none, .infinite false => "inf"
  | none, _ => "NaN"

/-- What values of a kind are called where they do not fit. -/
def parameterName : Kind → String
  | .integer => "i64"
  | .real => "f64"
  | .bool => "bool"
  | .blob => "&[u8]"
  | .text | .timestamp | .null => "&str"

/-- The wording of a fault. -/
def BindFault.message : BindFault → String
  | narrowing fault => fault.message
  | notAnInteger x => "cannot bind " ++ realText x ++ " to an integer column"
  | format fault => (Failure.format fault).message
  | wrongType kind type =>
    "cannot convert between the Rust type `" ++ parameterName kind ++
      "` and the Postgres type `" ++ type.fullName ++ "`"

/-- Seconds from 1970-01-01 to 2000-01-01. -/
def epochSeconds : Int := 946684800

/-- Days from 1970-01-01 to 2000-01-01. -/
def epochDays : Int := 10957

/-- Microseconds since 2000-01-01; what is left of a microsecond is dropped toward zero. -/
def microseconds (t : Instant) : Int :=
  (t.totalNanos - epochSeconds * 1000000000).tdiv 1000

/-- An integer in a column of some bits. -/
def narrowed (bits : Nat) (n : Int) : Except BindFault Bytes :=
  match narrow bits n with
  | .ok n => .ok (Text.bigEndian (bits / 8) n)
  | .error e => .error (.narrowing e)

/-- The bytes of an integer. -/
def bindInteger (n : Int64) (type : ColumnType) : Except BindFault Bytes :=
  match type with
  | .builtin .int2 => narrowed 16 n.toInt
  | .builtin .int4 => narrowed 32 n.toInt
  | .builtin .int8 => .ok (Text.bigEndian 8 n.toInt)
  | .builtin .float4 => .ok (Text.bigEndianNat 4 (Single.ofInt n.toInt).bits.toNat)
  | .builtin .float8 => .ok (Text.bigEndianNat 8 (Double.ofInt n.toInt).bits.toNat)
  | .builtin .bool => .ok [if n = 0 then 0 else 1]
  | _ => .error (.wrongType .integer type)

/-- The integer of 64 bits that a real is. The bounds are compared as reals: the upper one, which is
no real, is the one above it there. -/
def integral? (x : Double) : Option Int64 :=
  if x.fraction == ⟨0⟩ && Double.le (Double.ofInt Int64.minValue.toInt) x &&
      Double.lt x (Double.ofInt Int64.maxValue.toInt) then some x.toInt64
  else none

/-- The bytes of a real. -/
def bindReal (x : Double) (type : ColumnType) : Except BindFault Bytes :=
  match type with
  | .builtin .float4 => .ok (Text.bigEndianNat 4 x.toSingle.bits.toNat)
  | .builtin .float8 => .ok (Text.bigEndianNat 8 x.bits.toNat)
  | .builtin .int2 | .builtin .int4 | .builtin .int8 =>
    match integral? x with
    | some n => bindInteger n type
    | none => .error (.notAnInteger x)
  | _ => .error (.wrongType .real type)

/-- The bytes of a text that is bound as it is. -/
def bindPlainText (s : String) (type : ColumnType) : Except BindFault Bytes :=
  match type.textMark? with
  | some mark => .ok (mark ++ Text.utf8 s)
  | none => .error (.wrongType .text type)

/-- The bytes of an instant; for a column that is not temporal, those of its canonical text. -/
def bindInstant (t : Instant) (type : ColumnType) : Except BindFault Bytes :=
  match type with
  | .builtin .timestamp | .builtin .timestamptz => .ok (Text.bigEndian 8 (microseconds t))
  | .builtin .date => .ok (Text.bigEndian 4 (t.days - epochDays))
  | _ => bindPlainText t.canonical type

/-- The bytes of a text. -/
def bindText (s : String) (type : ColumnType) : Except BindFault Bytes :=
  match type with
  | .builtin .timestamp | .builtin .timestamptz | .builtin .date =>
    match Instant.parse s with
    | .ok t => bindInstant t type
    | .error e => .error (.format e)
  | _ => bindPlainText s type

/-- The binary form of a value for a placeholder; nothing stands for null. -/
def bind (v : Value) (type : ColumnType) : Except BindFault (Option Bytes) :=
  match v with
  | .null => .ok none
  | .integer n => (bindInteger n type).map some
  | .real x => (bindReal x type).map some
  | .text s => (bindText s type).map some
  | .bool b =>
    match type with
    | .builtin .bool => .ok (some [if b then 1 else 0])
    | _ => .error (.wrongType .bool type)
  | .blob bytes =>
    match type with
    | .builtin .bytea => .ok (some bytes)
    | _ => .error (.wrongType .blob type)
  | .timestamp t => (bindInstant t type).map some

end Postgres

end Tabular
