import Tabular.Binary.Format

/-!
# Real numbers of columns

`Double` and `Single` hold the bit patterns of 64-bit and 32-bit numbers, so that every operation
on them has an exact meaning.

- `Double.ofInt`, `Single.ofInt`, `Double.toSingle`: rounding to nearest, ties to even.
- `Double.toInt64`: the number without its fraction, as near to it as 64 bits allow.
- `a == b`: equality of numbers; zeros of either sign are equal and NaN equals nothing.
- `Double.order?`: how numbers compare; NaN compares with nothing.
-/

namespace Tabular

/-- A number of 64 bits. -/
structure Double where
  bits : UInt64
deriving DecidableEq

/-- A number of 32 bits. -/
structure Single where
  bits : UInt32
deriving DecidableEq

namespace Double

/-- What the bits denote. -/
def datum (x : Double) : BinaryDatum := BinaryFormat.double.decode x.bits.toNat

/-- The number with a bit pattern. -/
def ofPattern (n : Nat) : Double := ⟨UInt64.ofNat n⟩

/-- The number nearest to `± num / den`. -/
def ofRatio (negative : Bool) (num den : Nat) : Double :=
  ofPattern (BinaryFormat.double.ofRatio negative num den)

/-- The number nearest to an integer. -/
def ofInt (n : Int) : Double := ofRatio (n < 0) n.natAbs 1

/-- The pattern is not a number. -/
def isNaN (x : Double) : Bool :=
  match x.datum with
  | .nan .. => true
  | _ => false

/-- The pattern is an infinity. -/
def isInfinite (x : Double) : Bool :=
  match x.datum with
  | .infinite _ => true
  | _ => false

/-- The number is zero, of either sign. -/
def isZero (x : Double) : Bool :=
  match x.datum with
  | .finite _ significand _ => significand == 0
  | _ => false

/-- The integer of a sign and a magnitude. -/
def signed (negative : Bool) (n : Nat) : Int := if negative then -n else n

/-- How two numbers compare, if both are numbers. Finite ones are brought to the lesser of their
exponents. -/
def order? (x y : Double) : Option Ordering :=
  match x.datum, y.datum with
  | .finite s a i, .finite t b j =>
    some (compare (signed s (a <<< (i - j).toNat)) (signed t (b <<< (j - i).toNat)))
  | .finite .., .infinite negative => some (if negative then .gt else .lt)
  | .infinite negative, .finite .. => some (if negative then .lt else .gt)
  | .infinite s, .infinite t => some (if s = t then .eq else if s then .lt else .gt)
  | _, _ => none

/-- The first number is less. -/
def lt (x y : Double) : Bool := x.order? y == some .lt

/-- The first number is less or equal. -/
def le (x y : Double) : Bool := x.order? y == some .lt || x.order? y == some .eq

/-- The magnitude of a number without what it has after the point. -/
def whole (significand : Nat) (exponent : Int) : Nat :=
  if 0 ≤ exponent then significand <<< exponent.toNat else significand >>> (-exponent).toNat

/-- The part of a significand that is after the point. -/
def rest (significand : Nat) (exponent : Int) : Nat :=
  if 0 ≤ exponent then 0 else significand % 1 <<< (-exponent).toNat

/-- What a number has after the point, with its sign; what is left of a whole number is zero. -/
def fraction (x : Double) : Double :=
  match x.datum with
  | .finite negative significand exponent =>
    if rest significand exponent = 0 then ⟨0⟩
    else ofPattern (BinaryFormat.double.encode (.finite negative (rest significand exponent)
      exponent))
  | _ => ⟨0x7FF8000000000000⟩

/-- The number without its fraction, as near to it as 64 bits allow; zero for what is not a
number. -/
def toInt64 (x : Double) : Int64 :=
  match x.datum with
  | .finite negative significand exponent =>
    let n := signed negative (whole significand exponent)
    if n < Int64.minValue.toInt then Int64.minValue
    else if Int64.maxValue.toInt < n then Int64.maxValue
    else Int64.ofInt n
  | .infinite negative => if negative then Int64.minValue else Int64.maxValue
  | .nan .. => 0

/-- Equality of numbers. -/
protected def beq (x y : Double) : Bool :=
  !x.isNaN && !y.isNaN && (x.bits == y.bits || (x.isZero && y.isZero))

instance : BEq Double := ⟨Double.beq⟩

/-- The nearest number of 32 bits. -/
def toSingle (x : Double) : Single :=
  ⟨UInt32.ofNat (BinaryFormat.double.convert BinaryFormat.single x.bits.toNat)⟩

/-- The number of the opposite sign. -/
def neg (x : Double) : Double := ⟨x.bits ^^^ 0x8000000000000000⟩

/-- The product of finite nonnegative numbers, rounded once. -/
def mul (x y : Double) : Double :=
  match x.datum, y.datum with
  | .finite _ a i, .finite _ b j =>
    ofPattern (BinaryFormat.double.encode (.finite false (a * b) (i + j)))
  | _, _ => ⟨0x7FF0000000000000⟩

/-- The quotient of finite numbers, the first nonnegative and the second positive, rounded once. -/
def div (x y : Double) : Double :=
  match x.datum, y.datum with
  | .finite _ a i, .finite _ b j =>
    if j ≤ i then ofRatio false (a <<< (i - j).toNat) b
    else ofRatio false a (b <<< (j - i).toNat)
  | _, _ => ⟨0⟩

end Double

namespace Single

/-- The number nearest to an integer. -/
def ofInt (n : Int) : Single :=
  ⟨UInt32.ofNat (BinaryFormat.single.ofRatio (n < 0) n.natAbs 1)⟩

/-- The same number in 64 bits. -/
def toDouble (x : Single) : Double :=
  Double.ofPattern (BinaryFormat.single.convert BinaryFormat.double x.bits.toNat)

end Single

end Tabular
