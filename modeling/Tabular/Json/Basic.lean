import Tabular.Binary.Notation

/-!
# JSON values and their compact text

Members of an object keep the order that they are given in.

- `Json.write`: the text of a value, without blanks outside strings.
- `Json.quote`: a string literal; only quotes, backslashes and control characters are escaped.
- `Json.normalized`: the value with the members of every object in the order of their names, the
  last of equal names kept.
-/

namespace Tabular

/-- A JSON value. -/
inductive Json where
  | null
  | bool (b : Bool)
  | integer (n : Int)
  | real (x : Double)
  | text (s : String)
  | list (items : List Json)
  | object (members : List (String × Json))

namespace Json

/-- Numbers are written in positional notation from `1e-5` to below `1e16`, whole ones with a zero
after the point. -/
def notationOfReals : RealNotation := ⟨.toEven, fun e => -5 ≤ e && e < 16, true⟩

/-- A lower-case hexadecimal digit. -/
def hexDigit (n : Nat) : Char := if n < 10 then Char.ofNat (48 + n) else Char.ofNat (87 + n)

/-- A character inside a string literal. -/
def escape (c : Char) : List Char :=
  if c = '"' then ['\\', '"']
  else if c = '\\' then ['\\', '\\']
  else if c = '\x08' then ['\\', 'b']
  else if c = '\t' then ['\\', 't']
  else if c = '\n' then ['\\', 'n']
  else if c = '\x0c' then ['\\', 'f']
  else if c = '\r' then ['\\', 'r']
  else if c.toNat < 32 then
    ['\\', 'u', '0', '0', hexDigit (c.toNat / 16), hexDigit (c.toNat % 16)]
  else [c]

/-- A string literal. -/
def quote (s : String) : List Char := '"' :: (s.toList.flatMap escape ++ ['"'])

/-- The text of a number; what is not a finite number is null. -/
def writeReal (x : Double) : List Char :=
  (notationOfReals.write? x).getD ['n', 'u', 'l', 'l']

mutual

/-- The compact text of a value. -/
def write : Json → List Char
  | null => ['n', 'u', 'l', 'l']
  | bool true => ['t', 'r', 'u', 'e']
  | bool false => ['f', 'a', 'l', 's', 'e']
  | integer n => Text.signed n
  | real x => writeReal x
  | text s => quote s
  | list [] => ['[', ']']
  | list (v :: vs) => '[' :: (write v ++ writeItems vs)
  | object [] => ['\x7b', '\x7d']
  | object ((k, v) :: ms) => '\x7b' :: (quote k ++ ':' :: (write v ++ writeMembers ms))

/-- The items after the first, and the closing bracket. -/
def writeItems : List Json → List Char
  | [] => [']']
  | v :: vs => ',' :: (write v ++ writeItems vs)

/-- The members after the first, and the closing brace. -/
def writeMembers : List (String × Json) → List Char
  | [] => ['\x7d']
  | (k, v) :: ms => ',' :: (quote k ++ ':' :: (write v ++ writeMembers ms))

end

/-- The compact text of a value as a string. -/
def toText (v : Json) : String := String.ofList v.write

/-- A member put among members in the order of their names; an equal name gives way. -/
def putMember (k : String) (v : Json) : List (String × Json) → List (String × Json)
  | [] => [(k, v)]
  | (l, w) :: ms =>
    if k < l then (k, v) :: (l, w) :: ms
    else if k = l then (k, v) :: ms
    else (l, w) :: putMember k v ms

mutual

/-- The value with the members of every object in the order of their names. -/
def normalized : Json → Json
  | list items => list (normalizedItems items)
  | object members => object (normalizedMembers [] members)
  | v => v

/-- The items, each normalized. -/
def normalizedItems : List Json → List Json
  | [] => []
  | v :: vs => normalized v :: normalizedItems vs

/-- The members, each normalized, put one after another among ordered members. -/
def normalizedMembers (done : List (String × Json)) : List (String × Json) → List (String × Json)
  | [] => done
  | (k, v) :: ms => normalizedMembers (putMember k (normalized v) done) ms

end

end Json

end Tabular
