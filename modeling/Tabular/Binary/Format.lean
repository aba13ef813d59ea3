/-!
# Binary floating-point formats

The interchange formats of IEEE 754 over bit patterns held as natural numbers, with all rounding
in exact integer arithmetic.

- `BinaryFormat.decode`: what a bit pattern denotes.
- `BinaryFormat.encode`: the bit pattern of a datum; a finite one goes to the nearest number of
  the format, a tie to the even significand, and past the largest number to infinity.
- `BinaryFormat.convert`: the nearest pattern of another format.
-/

namespace Tabular

/-- Quotient rounded to the nearest integer, ties to even. -/
def roundDiv (num den : Nat) : Nat :=
  let q := num / den
  let r := num % den
  if den < 2 * r ∨ (2 * r = den ∧ q % 2 = 1) then q + 1 else q

/-- The sizes of the exponent and of the fraction of a format. -/
structure BinaryFormat where
  exponentBits : Nat
  fractionBits : Nat

/-- What a bit pattern denotes. -/
inductive BinaryDatum where
  /-- The number `± significand * 2 ^ exponent`. -/
  | finite (negative : Bool) (significand : Nat) (exponent : Int)
  | infinite (negative : Bool)
  | nan (negative : Bool) (payload : Nat)
deriving DecidableEq

namespace BinaryFormat

/-- Numbers of 64 bits. -/
def double : BinaryFormat := ⟨11, 52⟩

/-- Numbers of 32 bits. -/
def single : BinaryFormat := ⟨8, 23⟩

variable (f : BinaryFormat)

/-- The least exponent that a significand is scaled by. -/
def lowest : Int := 2 - (1 <<< (f.exponentBits - 1) : Nat) - f.fractionBits

/-- The pattern of infinity without its sign; the patterns above it are not numbers. -/
def infinity : Nat := (1 <<< f.exponentBits - 1) <<< f.fractionBits

/-- The value of the sign bit. -/
def signPlace : Nat := 1 <<< (f.exponentBits + f.fractionBits)

/-- What a bit pattern denotes. -/
def decode (bits : Nat) : BinaryDatum :=
  let negative := bits / f.signPlace % 2 == 1
  let exponent := bits >>> f.fractionBits % 1 <<< f.exponentBits
  let fraction := bits % 1 <<< f.fractionBits
  if exponent = 1 <<< f.exponentBits - 1 then
    if fraction = 0 then .infinite negative else .nan negative fraction
  else if exponent = 0 then .finite negative fraction f.lowest
  else .finite negative (1 <<< f.fractionBits + fraction) (f.lowest + exponent - 1)

/-- The pattern, without sign, of the number nearest to `num / den`. Patterns of finite numbers are
ordered like the numbers, so a significand that rounds up to the next power of two carries into
the exponent. -/
def magnitude (num den : Nat) : Nat :=
  if num = 0 then 0
  else
    let guess : Int := (num.log2 : Int) - den.log2
    let reached :=
      if 0 ≤ guess then den <<< guess.toNat ≤ num else den ≤ num <<< (-guess).toNat
    let top := if reached then guess else guess - 1
    let unit := max f.lowest (top - f.fractionBits)
    let significand :=
      if 0 ≤ unit then roundDiv num (den <<< unit.toNat)
      else roundDiv (num <<< (-unit).toNat) den
    min f.infinity ((unit - f.lowest).toNat <<< f.fractionBits + significand)

/-- The pattern of a sign and a magnitude. -/
def withSign (negative : Bool) (magnitude : Nat) : Nat :=
  if negative then f.signPlace + magnitude else magnitude

/-- The pattern of the number nearest to `± num / den`. -/
def ofRatio (negative : Bool) (num den : Nat) : Nat := f.withSign negative (f.magnitude num den)

/-- The pattern of a datum. A pattern that is not a number is a quiet one. -/
def encode : BinaryDatum → Nat
  | .finite negative significand exponent =>
    if 0 ≤ exponent then f.ofRatio negative (significand <<< exponent.toNat) 1
    else f.ofRatio negative significand (1 <<< (-exponent).toNat)
  | .infinite negative => f.withSign negative f.infinity
  | .nan negative payload =>
    let quiet := 1 <<< (f.fractionBits - 1)
    f.withSign negative (f.infinity + quiet + payload % quiet)

/-- The nearest pattern of another format. The leading bits of a pattern that is not a number are
kept. -/
def convert (target : BinaryFormat) (bits : Nat) : Nat :=
  match f.decode bits with
  | .nan negative payload =>
    target.encode (.nan negative (payload <<< target.fractionBits >>> f.fractionBits))
  | datum => target.encode datum

end BinaryFormat

end Tabular
