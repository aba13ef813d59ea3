import Tabular.Failure

/-!
# Conversions to and from values

- `ToValue`: types whose members can be stored.
- `ToNumber`: types whose members can be operands of arithmetic.
- `FromValue`: types that the value of a column can be read as. The error names the column.
- `Value.decode`: how text that a store keeps becomes an instant again. It never fails, and gives
  `Value.decoded` (`Value.decode_eq`).
-/

namespace Tabular

/-- Types whose members can be stored. -/
class ToValue (α : Type) where
  toValue : α → Value

export ToValue (toValue)

instance : ToValue Value := ⟨id⟩
instance : ToValue Int8 := ⟨fun n => .integer n.toInt64⟩
instance : ToValue Int16 := ⟨fun n => .integer n.toInt64⟩
instance : ToValue Int32 := ⟨fun n => .integer n.toInt64⟩
instance : ToValue Int64 := ⟨.integer⟩
instance : ToValue UInt8 := ⟨fun n => .integer (Int64.ofNat n.toNat)⟩
instance : ToValue UInt16 := ⟨fun n => .integer (Int64.ofNat n.toNat)⟩
instance : ToValue UInt32 := ⟨fun n => .integer (Int64.ofNat n.toNat)⟩
instance : ToValue Single := ⟨fun x => .real x.toDouble⟩
instance : ToValue Double := ⟨.real⟩
instance : ToValue Bool := ⟨.bool⟩
instance : ToValue String := ⟨.text⟩
instance : ToValue Bytes := ⟨.blob⟩
instance : ToValue Instant := ⟨.timestamp⟩

instance {α : Type} [ToValue α] : ToValue (Option α) :=
  ⟨fun a => match a with
    | some a => toValue a
    | none => .null⟩

/-- Types whose members can be operands of arithmetic. -/
class ToNumber (α : Type) where
  toNumber : α → Number

export ToNumber (toNumber)

instance : ToNumber Number := ⟨id⟩
instance : ToNumber Int8 := ⟨fun n => .integer n.toInt64⟩
instance : ToNumber Int16 := ⟨fun n => .integer n.toInt64⟩
instance : ToNumber Int32 := ⟨fun n => .integer n.toInt64⟩
instance : ToNumber Int64 := ⟨.integer⟩
instance : ToNumber UInt8 := ⟨fun n => .integer (Int64.ofNat n.toNat)⟩
instance : ToNumber UInt16 := ⟨fun n => .integer (Int64.ofNat n.toNat)⟩
instance : ToNumber UInt32 := ⟨fun n => .integer (Int64.ofNat n.toNat)⟩
instance : ToNumber Single := ⟨fun x => .real x.toDouble⟩
instance : ToNumber Double := ⟨.real⟩

/-- An integer as one of fewer bits, if it fits. -/
def narrow (bits : Nat) (n : Int) : Except NarrowingFault Int :=
  let bound : Int := (1 <<< (bits - 1) : Nat)
  if bound ≤ n then .error .tooLarge
  else if n < -bound then .error .tooSmall
  else .ok n

/-- Types that the value of a column can be read as. -/
class FromValue (α : Type) where
  fromValue : String → Value → Except Failure α

export FromValue (fromValue)

/-- The content of a value, or the failure to find the expected kind. -/
def expect {α : Type} (kind : Kind) (view : Value → Option α) (column : String) (v : Value) :
    Except Failure α :=
  match view v with
  | some a => .ok a
  | none => .error (.decode column (.mismatch kind v.kind))

instance : FromValue Value := ⟨fun _ v => .ok v⟩
instance : FromValue Int64 := ⟨expect .integer Value.integer?⟩
instance : FromValue Double := ⟨expect .real Value.real?⟩
instance : FromValue Bool := ⟨expect .bool Value.bool?⟩
instance : FromValue String := ⟨expect .text Value.text?⟩
instance : FromValue Bytes := ⟨expect .blob Value.blob?⟩
instance : FromValue Instant := ⟨expect .timestamp Value.timestamp?⟩

instance : FromValue Int32 where
  fromValue column v := do
    let n ← expect .integer Value.integer? column v
    match narrow 32 n.toInt with
    | .ok n => return Int32.ofInt n
    | .error e => throw (.decode column (.narrowing e))

/-- Null is read as nothing, any other value as a member. -/
instance {α : Type} [FromValue α] : FromValue (Option α) where
  fromValue column v := if v.isNull then .ok none else (fromValue column v).map some

/-- Reads a stored value: text in the shape of a date, with a time or without, becomes the instant
that it denotes. Text that only looks like a date, such as `0000-00-00`, stays text. -/
def Value.decode : Value → Except Failure Value
  | text s =>
    match TemporalShape.of? s with
    | some .date | some .dateTime =>
      match Instant.parse s with
      | .ok t => .ok (timestamp t)
      | .error _ => .ok (text s)
    | some .timeOfDay | none => .ok (text s)
  | v => .ok v

/-- The form that a stored value is read in: text that denotes an instant is that instant. -/
def Value.decoded : Value → Value
  | text s =>
    match Instant.parse s with
    | .ok t => timestamp t
    | .error _ => text s
  | v => v

/-- Reading never fails. Whether a text has a shape with a date need not be asked first, since text
of any other shape denotes no instant. -/
theorem Value.decode_eq (v : Value) : v.decode = .ok v.decoded := by
  cases v with
  | text s =>
    unfold decode decoded
    dsimp only
    cases hshape : TemporalShape.of? s with
    | none =>
      have hparse : Instant.parse s = .error (.unrecognized s) := by rw [Instant.parse, hshape]
      rw [hparse]
    | some shape =>
      cases shape with
      | timeOfDay =>
        have hparse : Instant.parse s = .error (.noDate s) := by rw [Instant.parse, hshape]
        rw [hparse]
      | date => cases Instant.parse s <;> rfl
      | dateTime => cases Instant.parse s <;> rfl
  | _ => rfl

end Tabular
