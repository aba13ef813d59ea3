import Tabular.Binary.Format

/-!
# Shortest decimals

The decimal with the fewest digits among those that round to a given binary number, and of these
the one nearest to it.

The decimals that round to a number fill an interval around it, ends included when its significand
is even. On the grid of multiples of `10 ^ k` the two neighbours of the number are the only points
worth a test: if any point of the grid is in the interval, one of them is.
-/

namespace Tabular

/-- The number `digits * 10 ^ exponent`. -/
structure Decimal where
  digits : Nat
  exponent : Int
deriving DecidableEq

/-- Where a value goes that is exactly between two decimals. -/
inductive Tie where
  | toEven
  | up
deriving DecidableEq

/-- The interval of the magnitudes that round to a value, over a common denominator. -/
structure RoundingInterval where
  low : Nat
  value : Nat
  high : Nat
  den : Nat
  closed : Bool

namespace RoundingInterval

/-- The interval around `significand * 2 ^ exponent`. Below a power of two the numbers lie twice
as close together. -/
def around (f : BinaryFormat) (significand : Nat) (exponent : Int) : RoundingInterval :=
  let below :=
    if significand = 1 <<< f.fractionBits ∧ f.lowest < exponent then 1 else 2
  let unit := exponent - 2
  let scale := 1 <<< unit.toNat
  { low := (4 * significand - below) * scale
    value := 4 * significand * scale
    high := (4 * significand + 2) * scale
    den := 1 <<< (-unit).toNat
    closed := significand % 2 == 0 }

/-- The interval measured in units of `10 ^ k`. -/
def inUnits (i : RoundingInterval) (k : Int) : RoundingInterval :=
  if 0 ≤ k then { i with den := i.den * Nat.pow 10 k.toNat }
  else
    let scale := Nat.pow 10 (-k).toNat
    { i with low := i.low * scale, value := i.value * scale, high := i.high * scale }

/-- The point of the unit grid in the interval that is nearest to the value. -/
def nearestPoint? (i : RoundingInterval) (tie : Tie) : Option Nat :=
  let d := i.value / i.den
  let inside (n : Nat) : Bool :=
    0 < n && (if i.closed then i.low ≤ n * i.den && n * i.den ≤ i.high
      else i.low < n * i.den && n * i.den < i.high)
  let twice := 2 * (i.value % i.den)
  let upper : Bool :=
    i.den < twice || (twice == i.den && (tie == .up || d % 2 == 1))
  match inside d, inside (d + 1) with
  | true, true => some (if upper then d + 1 else d)
  | true, false => some d
  | false, true => some (d + 1)
  | false, false => none

/-- The first of the grids `10 ^ k`, `10 ^ (k - 1)`, … with a point in the interval. -/
def search (i : RoundingInterval) (tie : Tie) : Nat → Int → Decimal
  | 0, k => ⟨(i.inUnits k).value / (i.inUnits k).den, k⟩
  | fuel + 1, k =>
    match (i.inUnits k).nearestPoint? tie with
    | some d => ⟨d, k⟩
    | none => i.search tie fuel (k - 1)

end RoundingInterval

/-- The shortest decimal that rounds to the positive number `significand * 2 ^ exponent`. The
search starts above the number, and at most seventeen digits are ever needed. -/
def Decimal.shortest (f : BinaryFormat) (tie : Tie) (significand : Nat) (exponent : Int) :
    Decimal :=
  let start := ((significand.log2 : Int) + 1 + exponent) * 30103 / 100000 + 2
  (RoundingInterval.around f significand exponent).search tie 25 start

end Tabular
