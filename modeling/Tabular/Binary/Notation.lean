import Tabular.Binary.Double
import Tabular.Binary.Shortest
import Tabular.Text.Decimal

/-!
# Written real numbers

A `RealNotation` says how the digits of a number are laid out. All notations write the shortest
digits that read back as the number.
-/

namespace Tabular

/-- How the digits of a number are laid out. -/
structure RealNotation where
  /-- Where a value goes that is exactly between two shortest decimals. -/
  tie : Tie
  /-- The exponents of the first digit that are written without an exponent. -/
  positional : Int → Bool
  /-- Numbers without a fraction end in `.0` where no exponent is written. -/
  pointZero : Bool

namespace RealNotation

/-- The digits without an exponent. -/
def writePositional (n : RealNotation) (digits : List Char) (exponent : Int) : List Char :=
  if 0 ≤ exponent then
    digits ++ List.replicate exponent.toNat '0' ++ if n.pointZero then ['.', '0'] else []
  else
    let places := (-exponent).toNat
    let digits := List.replicate (places + 1 - digits.length) '0' ++ digits
    digits.take (digits.length - places) ++ '.' :: digits.drop (digits.length - places)

/-- One digit, the others after a point, and the signed exponent of the first digit. -/
def writeScientific (digits : List Char) (exponent : Int) : List Char :=
  let point := match digits with
    | d :: e :: es => d :: '.' :: e :: es
    | ds => ds
  let sign := if exponent < 0 then '-' else '+'
  point ++ 'e' :: sign :: Text.decimal exponent.natAbs

/-- The text of a finite number. -/
def write? (n : RealNotation) (x : Double) : Option (List Char) :=
  match x.datum with
  | .finite negative significand exponent =>
    let sign := if negative then ['-'] else []
    if significand = 0 then some (sign ++ n.writePositional ['0'] 0)
    else
      let d := Decimal.shortest BinaryFormat.double n.tie significand exponent
      let digits := Text.decimal d.digits
      let leading := d.exponent + digits.length - 1
      some (sign ++
        if n.positional leading then n.writePositional digits d.exponent
        else writeScientific digits leading)
  | _ => none

end RealNotation

end Tabular
