import Tabular.Text.Decimal

/-!
# Internet addresses

Which texts are addresses of version 4 or 6.
-/

namespace Tabular

namespace Connection

/-- The pieces of a text between the places where a character stands; one piece if it stands
nowhere. -/
def splitAtChar (c : Char) : List Char → List (List Char)
  | [] => [[]]
  | d :: ds =>
    if d = c then [] :: splitAtChar c ds
    else
      match splitAtChar c ds with
      | piece :: pieces => (d :: piece) :: pieces
      | [] => [[d]]

/-- The text before the first `::` and the text after it. -/
def splitAtGap : List Char → Option (List Char × List Char)
  | ':' :: ':' :: rest => some ([], rest)
  | c :: rest => (splitAtGap rest).map fun (before, after) => (c :: before, after)
  | [] => none

/-- A number up to 255 in digits without leading zeros. -/
def isOctet (cs : List Char) : Bool :=
  match cs with
  | ['0'] => true
  | '0' :: _ => false
  | _ => cs.length ≤ 3 && (Text.readNat? cs).any (· ≤ 255)

/-- Four octets with points between them. -/
def isVersion4 (cs : List Char) : Bool :=
  let octets := splitAtChar '.' cs
  octets.length == 4 && octets.all isOctet

/-- One to four hexadecimal digits. -/
def isGroup (cs : List Char) : Bool :=
  1 ≤ cs.length && cs.length ≤ 4 &&
    cs.all fun c => c.isDigit || ('a' ≤ c && c ≤ 'f') || ('A' ≤ c && c ≤ 'F')

/-- The number of groups that pieces stand for: a last piece in the form of version 4 stands for
two. -/
def groupCount? : List (List Char) → Option Nat
  | [] => some 0
  | [piece] => if isGroup piece then some 1 else if isVersion4 piece then some 2 else none
  | piece :: pieces => if isGroup piece then (groupCount? pieces).map (· + 1) else none

/-- The number of groups of a text with colons between them; the empty text has none. -/
def groupsOf? (cs : List Char) : Option Nat :=
  if cs = [] then some 0 else groupCount? (splitAtChar ':' cs)

/-- Eight groups, or fewer with `::` in place of the missing ones, before which no group has the
form of version 4. -/
def isVersion6 (cs : List Char) : Bool :=
  match splitAtGap cs with
  | none => groupsOf? cs == some 8
  | some (before, after) =>
    match groupsOf? before, groupsOf? after with
    | some m, some n => m + n ≤ 7 && !before.contains '.'
    | _, _ => false

/-- The text is an address. -/
def isAddress (s : String) : Bool := isVersion4 s.toList || isVersion6 s.toList

end Connection

end Tabular
