import Tabular.Json.Basic

/-!
# Reading JSON

The grammar of JSON over characters. Every reader takes the text that is left and gives what it
read with the text after it; a text that ends too early is told apart from one that is malformed.

- `Json.parse`: the value of a text. Lists and objects may lie 127 deep.
- `Json.skipValue`: a value passed over, of any depth, in which only the grammar counts: numbers
  may be out of range and escapes may be halves of a pair.
- `Numeral`: integers of 64 bits are exact. Any other number is rounded twice: its digits to a
  number, then the product or quotient with the power of ten.
-/

namespace Tabular

namespace Json

/-- Why a text is not read. -/
inductive Fault where
  /-- The text ends inside a value. -/
  | ended
  /-- The text is not a value, or more than one. -/
  | malformed
deriving DecidableEq

/-- The text after its leading blanks. -/
def skipBlank (cs : List Char) : List Char :=
  cs.dropWhile fun c => c = ' ' ∨ c = '\n' ∨ c = '\t' ∨ c = '\r'

/-- The text after a word that it must begin with. -/
def readWord : List Char → List Char → Except Fault (List Char)
  | [], cs => .ok cs
  | _ :: _, [] => .error .ended
  | w :: ws, c :: cs => if c = w then readWord ws cs else .error .malformed

/-! ## Strings -/

/-- The number of a hexadecimal digit of either case. -/
def hexValue? (c : Char) : Option Nat :=
  if c.isDigit then some (c.toNat - 48)
  else if 'a' ≤ c ∧ c ≤ 'f' then some (c.toNat - 87)
  else if 'A' ≤ c ∧ c ≤ 'F' then some (c.toNat - 55)
  else none

/-- The number of four hexadecimal digits. -/
def hexValue4? (a b c d : Char) : Option Nat := do
  let a ← hexValue? a
  let b ← hexValue? b
  let c ← hexValue? c
  let d ← hexValue? d
  return ((a * 16 + b) * 16 + c) * 16 + d

/-- The first half of a pair of escapes. -/
def isHighHalf (n : Nat) : Bool := 0xD800 ≤ n && n ≤ 0xDBFF

/-- The second half of a pair of escapes. -/
def isLowHalf (n : Nat) : Bool := 0xDC00 ≤ n && n ≤ 0xDFFF

/-- The character that two halves denote. -/
def joinHalves (high low : Nat) : Char :=
  Char.ofNat ((high - 0xD800) * 1024 + (low - 0xDC00) + 0x10000)

/-- The character that a backslash and this character denote. -/
def unescape? : Char → Option Char
  | '"' => some '"'
  | '\\' => some '\\'
  | '/' => some '/'
  | 'b' => some '\x08'
  | 'f' => some '\x0c'
  | 'n' => some '\n'
  | 'r' => some '\r'
  | 't' => some '\t'
  | _ => none

/-- What is wrong with a hexadecimal escape of fewer than four characters: with fewer than four
bytes left the text has ended. -/
def shortEscape (rest : List Char) : Fault :=
  if (String.ofList rest).utf8ByteSize < 4 then .ended else .malformed

/-- One more character in front of the characters read. -/
def withChar (c : Char) :
    Except Fault (List Char × List Char) → Except Fault (List Char × List Char)
  | .ok (cs, rest) => .ok (c :: cs, rest)
  | .error e => .error e

/-- The characters of a string literal up to its closing quote, after the first half of a pair of
escapes or after none. -/
def readChars : Option Nat → List Char → Except Fault (List Char × List Char)
  | none, [] => .error .ended
  | none, '"' :: rest => .ok ([], rest)
  | none, '\\' :: 'u' :: a :: b :: c :: d :: rest =>
    match hexValue4? a b c d with
    | none => .error .malformed
    | some n =>
      if isLowHalf n then .error .malformed
      else if isHighHalf n then readChars (some n) rest
      else withChar (Char.ofNat n) (readChars none rest)
  | none, '\\' :: 'u' :: rest => .error (shortEscape rest)
  | none, '\\' :: c :: rest =>
    match unescape? c with
    | none => .error .malformed
    | some c => withChar c (readChars none rest)
  | none, ['\\'] => .error .ended
  | none, c :: rest =>
    if c.toNat < 32 then .error .malformed else withChar c (readChars none rest)
  | some high, '\\' :: 'u' :: a :: b :: c :: d :: rest =>
    match hexValue4? a b c d with
    | none => .error .malformed
    | some n =>
      if isLowHalf n then withChar (joinHalves high n) (readChars none rest)
      else .error .malformed
  | some _, '\\' :: 'u' :: rest => .error (shortEscape rest)
  | some _, ['\\'] => .error .ended
  | some _, [] => .error .ended
  | some _, _ => .error .malformed

/-- A string, after its opening quote. -/
def readString (cs : List Char) : Except Fault (String × List Char) :=
  (readChars none cs).map fun (chars, rest) => (String.ofList chars, rest)

/-- The text after a string literal whose opening quote has been read. -/
def skipString : List Char → Except Fault (List Char)
  | [] => .error .ended
  | '"' :: rest => .ok rest
  | '\\' :: 'u' :: a :: b :: c :: d :: rest =>
    if (hexValue4? a b c d).isSome then skipString rest else .error .malformed
  | '\\' :: 'u' :: rest => .error (shortEscape rest)
  | '\\' :: c :: rest => if (unescape? c).isSome then skipString rest else .error .malformed
  | ['\\'] => .error .ended
  | c :: rest => if c.toNat < 32 then .error .malformed else skipString rest

/-! ## Numbers -/

/-- The parts of a written number, in digits. -/
structure Numeral where
  negative : Bool
  whole : List Char
  fraction : Option (List Char)
  exponent : Option (Bool × List Char)

/-- A run of digits and the text after it. -/
def digits (cs : List Char) : List Char × List Char := cs.span Char.isDigit

/-- What is wrong where a digit is missing. -/
def missingDigit (rest : List Char) : Fault := if rest = [] then .ended else .malformed

/-- The exponent part of a number, if there is one. -/
def readExponent : List Char → Except Fault (Option (Bool × List Char) × List Char)
  | [] => .ok (none, [])
  | c :: cs =>
    if c = 'e' ∨ c = 'E' then
      let (negative, cs) := match cs with
        | '-' :: cs => (true, cs)
        | '+' :: cs => (false, cs)
        | cs => (false, cs)
      match digits cs with
      | ([], rest) => .error (missingDigit rest)
      | (ds, rest) => .ok (some (negative, ds), rest)
    else .ok (none, c :: cs)

/-- The fraction part of a number, if there is one. -/
def readFraction : List Char → Except Fault (Option (List Char) × List Char)
  | '.' :: cs =>
    match digits cs with
    | ([], rest) => .error (missingDigit rest)
    | (ds, rest) => .ok (some ds, rest)
  | cs => .ok (none, cs)

/-- A number, after its minus sign if it has one. A leading zero stands alone. -/
def readNumeral (negative : Bool) (cs : List Char) : Except Fault (Numeral × List Char) :=
  match digits cs with
  | ([], rest) => .error (missingDigit rest)
  | ('0' :: _ :: _, _) => .error .malformed
  | (whole, rest) => do
    let (fraction, rest) ← readFraction rest
    let (exponent, rest) ← readExponent rest
    return (⟨negative, whole, fraction, exponent⟩, rest)

/-- Digits taken up in a number of 64 bits as long as it has room, and the digits left over. -/
def takeDigits : Nat → List Char → Nat × List Char
  | n, [] => (n, [])
  | n, d :: ds =>
    let next := 10 * n + Text.digitValue d
    if next < UInt64.size then takeDigits next ds else (n, d :: ds)

/-- The number times `10 ^ exponent`, unless it is too large. -/
def scale : Nat → Double → Int → Option Double
  | 0, _, _ => some ⟨0⟩
  | fuel + 1, x, exponent =>
    if exponent.natAbs ≤ 308 then
      let power := Double.ofInt (Nat.pow 10 exponent.natAbs)
      if 0 ≤ exponent then
        let y := x.mul power
        if y.isInfinite then none else some y
      else some (x.div power)
    else if x.isZero then some x
    else if 0 ≤ exponent then none
    else scale fuel (x.div (Double.ofInt (Nat.pow 10 308))) (exponent + 308)

/-- The value of a number: an integer if it is written as one and fits, else the rounded number
unless that is too large. -/
def Numeral.value? (n : Numeral) : Option Json :=
  let (whole, excess) := takeDigits 0 n.whole
  let signed (x : Double) : Double := if n.negative then x.neg else x
  match n.fraction, n.exponent, excess with
  | none, none, [] =>
    if n.negative then
      if 0 < whole ∧ Int64.minValue.toInt ≤ -whole then some (.integer (-whole))
      else some (.real (signed (Double.ofInt whole)))
    else some (.integer whole)
  | fraction, exponent, _ =>
    let places := fraction.getD []
    let (significand, dropped) := takeDigits whole places
    let written : Int := match exponent with
      | none => 0
      | some (negative, ds) => if negative then -(Text.value ds : Int) else Text.value ds
    let exponent := written + excess.length - (places.length - dropped.length : Nat)
    (scale 4 (Double.ofInt significand) exponent).map fun x => .real (signed x)

/-- A number and its value, after its minus sign if it has one. -/
def readNumber (negative : Bool) (cs : List Char) : Except Fault (Json × List Char) := do
  let (n, rest) ← readNumeral negative cs
  match n.value? with
  | some v => return (v, rest)
  | none => throw .malformed

/-- The text after a number whose sign has been read; a number cut short is malformed even where
the text ends. -/
def skipNumber (cs : List Char) : Except Fault (List Char) :=
  match readNumeral false cs with
  | .ok (_, rest) => .ok rest
  | .error _ => .error .malformed

/-! ## Values -/

/-- Where an item of a list or a member of an object may begin. -/
inductive Position where
  | first
  | later
  deriving DecidableEq

/-- The text at the next item of a list or member of an object, or nothing after the closing
character: items are separated by commas, and no comma stands before the closing character. -/
def next? (close : Char) (position : Position) (cs : List Char) :
    Except Fault (Option (List Char) × List Char) :=
  match skipBlank cs with
  | [] => .error .ended
  | c :: rest =>
    if c = close then .ok (none, rest)
    else if position = .first then .ok (some (c :: rest), [])
    else if c = ',' then
      match skipBlank rest with
      | [] => .error .ended
      | d :: rest => if d = close then .error .malformed else .ok (some (d :: rest), [])
    else .error .malformed

/-- The name of a member and the text after its colon. -/
def readName (cs : List Char) : Except Fault (String × List Char) :=
  match cs with
  | '"' :: rest => readString rest
  | _ => .error .malformed

/-- The text after a colon. -/
def readColon (cs : List Char) : Except Fault (List Char) :=
  match skipBlank cs with
  | [] => .error .ended
  | ':' :: rest => .ok rest
  | _ => .error .malformed

mutual

/-- A value; lists and objects may lie `depth` deep in it. -/
def readValue : Nat → Nat → List Char → Except Fault (Json × List Char)
  | 0, _, _ => .error .malformed
  | fuel + 1, depth, cs =>
    match skipBlank cs with
    | [] => .error .ended
    | 'n' :: cs => (readWord ['u', 'l', 'l'] cs).map fun cs => (.null, cs)
    | 't' :: cs => (readWord ['r', 'u', 'e'] cs).map fun cs => (.bool true, cs)
    | 'f' :: cs => (readWord ['a', 'l', 's', 'e'] cs).map fun cs => (.bool false, cs)
    | '-' :: cs => readNumber true cs
    | '"' :: cs => (readString cs).map fun (s, cs) => (.text s, cs)
    | '[' :: cs =>
      match depth with
      | 0 => .error .malformed
      | depth + 1 =>
        (readItems fuel depth .first cs).map fun (items, cs) => (.list items, cs)
    | '\x7b' :: cs =>
      match depth with
      | 0 => .error .malformed
      | depth + 1 =>
        (readMembers fuel depth .first cs).map fun (members, cs) => (.object members, cs)
    | c :: cs => if c.isDigit then readNumber false (c :: cs) else .error .malformed

/-- The items of a list from the given position, up to its end. -/
def readItems : Nat → Nat → Position → List Char → Except Fault (List Json × List Char)
  | 0, _, _, _ => .error .malformed
  | fuel + 1, depth, position, cs => do
    match ← next? ']' position cs with
    | (none, rest) => return ([], rest)
    | (some cs, _) =>
      let (v, cs) ← readValue fuel depth cs
      let (vs, cs) ← readItems fuel depth .later cs
      return (v :: vs, cs)

/-- The members of an object from the given position, up to its end. -/
def readMembers :
    Nat → Nat → Position → List Char → Except Fault (List (String × Json) × List Char)
  | 0, _, _, _ => .error .malformed
  | fuel + 1, depth, position, cs => do
    match ← next? '\x7d' position cs with
    | (none, rest) => return ([], rest)
    | (some cs, _) =>
      let (k, cs) ← readName cs
      let cs ← readColon cs
      let (v, cs) ← readValue fuel depth cs
      let (ms, cs) ← readMembers fuel depth .later cs
      return ((k, v) :: ms, cs)

end

mutual

/-- The text after a value of any depth. -/
def skipValue : Nat → List Char → Except Fault (List Char)
  | 0, _ => .error .malformed
  | fuel + 1, cs =>
    match skipBlank cs with
    | [] => .error .ended
    | 'n' :: cs => readWord ['u', 'l', 'l'] cs
    | 't' :: cs => readWord ['r', 'u', 'e'] cs
    | 'f' :: cs => readWord ['a', 'l', 's', 'e'] cs
    | '-' :: cs => skipNumber cs
    | '"' :: cs => skipString cs
    | '[' :: cs => skipItems fuel .first cs
    | '\x7b' :: cs => skipMembers fuel .first cs
    | c :: cs => if c.isDigit then skipNumber (c :: cs) else .error .malformed

/-- The text after the items of a list from the given position. -/
def skipItems : Nat → Position → List Char → Except Fault (List Char)
  | 0, _, _ => .error .malformed
  | fuel + 1, position, cs => do
    match ← next? ']' position cs with
    | (none, rest) => return rest
    | (some cs, _) =>
      let cs ← skipValue fuel cs
      skipItems fuel .later cs

/-- The text after the members of an object from the given position. -/
def skipMembers : Nat → Position → List Char → Except Fault (List Char)
  | 0, _, _ => .error .malformed
  | fuel + 1, position, cs => do
    match ← next? '\x7d' position cs with
    | (none, rest) => return rest
    | (some cs, _) =>
      let cs ← match cs with
        | '"' :: rest => skipString rest
        | _ => .error .malformed
      let cs ← readColon cs
      let cs ← skipValue fuel cs
      skipMembers fuel .later cs

end

/-- A bound on the steps that a text can take: each list or object spends two on every item. -/
def fuelFor (cs : List Char) : Nat := 2 * cs.length + 2

/-- The value of a text with nothing but blanks around it. -/
def parse (cs : List Char) : Except Fault Json := do
  let (v, rest) ← readValue (fuelFor cs) 127 cs
  if skipBlank rest = [] then return v else throw .malformed

end Json

end Tabular
