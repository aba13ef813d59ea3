import Tabular.Connection.Address
import Tabular.Text.Blank
import Tabular.Text.Bytes

/-!
# Connection strings

A connection string names servers and options in one of two forms: a URL that begins with
`postgres://` or `postgresql://`, or a list of `key=value` pairs with blanks between them.

- `Target.ofString?`: what a connection string names; nothing if it cannot be read.
- `Target.isComplete`: the hosts, addresses and ports that it names fit together.
-/

namespace Tabular

namespace Connection

/-- How many hosts, addresses and ports are named. -/
structure Target where
  hosts : Nat := 0
  addresses : Nat := 0
  ports : Nat := 0

namespace Target

/-- Some server is named; hosts and addresses go together one by one if both are named, and so do
several ports with the servers. -/
def isComplete (t : Target) : Bool :=
  let servers := if t.hosts = 0 then t.addresses else t.hosts
  0 < servers && (t.hosts = 0 || t.addresses = 0 || t.hosts = t.addresses) &&
    (t.ports ≤ 1 || t.ports = servers)

/-- The integer of a text with or without a sign, within bounds. A minus sign goes only with
bounds below zero. -/
def readInteger? (low high : Int) (s : String) : Option Int :=
  let n : Option Int := match s.toList with
    | '+' :: ds => (Text.readNat? ds).map Int.ofNat
    | '-' :: ds => if low < 0 then (Text.readNat? ds).map fun n => -(n : Int) else none
    | ds => (Text.readNat? ds).map Int.ofNat
  n.filter fun n => low ≤ n ∧ n ≤ high

/-- A list of ports with commas between them; an empty one is the usual port. -/
def arePorts (pieces : List (List Char)) : Bool :=
  pieces.all fun p => p == [] || (readInteger? 0 65535 (String.ofList p)).isSome

/-- The words that options with a fixed choice take. -/
def choices : List (String × List String) :=
  [("sslmode", ["disable", "prefer", "require"]), ("sslnegotiation", ["postgres", "direct"]),
    ("target_session_attrs", ["any", "read-write", "read-only"]),
    ("channel_binding", ["disable", "prefer", "require"]),
    ("load_balance_hosts", ["disable", "random"])]

/-- The bounds of options that are numbers. -/
def numbers : List (String × Int × Int) :=
  let word := (Int64.minValue.toInt, Int64.maxValue.toInt)
  [("connect_timeout", word), ("tcp_user_timeout", word), ("keepalives_idle", word),
    ("keepalives_interval", word), ("keepalives", 0, UInt64.size - 1),
    ("keepalives_retries", 0, UInt32.size - 1)]

/-- The options that take any text. -/
def texts : List String := ["user", "password", "dbname", "options", "application_name"]

/-- The target with one more option, if it is known and has a value that it can have. -/
def setOption? (t : Target) (key value : String) : Option Target :=
  let pieces := splitAtChar ',' value.toList
  if key = "host" then some { t with hosts := t.hosts + pieces.length }
  else if key = "hostaddr" then
    if pieces.all fun p => isAddress (String.ofList p) then
      some { t with addresses := t.addresses + pieces.length }
    else none
  else if key = "port" then
    if arePorts pieces then some { t with ports := t.ports + pieces.length } else none
  else if texts.contains key then some t
  else
    match choices.lookup key, numbers.lookup key with
    | some words, _ => if words.contains value then some t else none
    | none, some (low, high) => (readInteger? low high value).map fun _ => t
    | none, none => none

/-! ## Pairs -/

/-- The value of a pair up to the next blank, and the text after it. A backslash takes the next
character as it is. -/
def bareValue : List Char → List Char × List Char
  | [] => ([], [])
  | ['\\'] => ([], [])
  | '\\' :: c :: rest =>
    let (value, rest) := bareValue rest
    (c :: value, rest)
  | c :: rest =>
    if Text.isBlank c then ([], c :: rest)
    else
      let (value, rest) := bareValue rest
      (c :: value, rest)

/-- The value of a pair up to its closing quote, and the text after that. -/
def quotedValue? : List Char → Option (List Char × List Char)
  | [] => none
  | ['\\'] => none
  | '\'' :: rest => some ([], rest)
  | '\\' :: c :: rest => (quotedValue? rest).map fun (value, rest) => (c :: value, rest)
  | c :: rest => (quotedValue? rest).map fun (value, rest) => (c :: value, rest)

/-- The value of a pair and the text after it. Only a quoted value may be empty. -/
def pairValue? : List Char → Option (List Char × List Char)
  | '\'' :: rest => quotedValue? rest
  | cs =>
    match bareValue cs with
    | ([], _) => none
    | found => some found

/-- The target with the options of a list of pairs. The list ends where no key follows. -/
def readPairs? : Nat → Target → List Char → Option Target
  | 0, _, _ => none
  | fuel + 1, t, cs =>
    let cs := cs.dropWhile Text.isBlank
    match cs.span fun c => !Text.isBlank c && c != '=' with
    | ([], _) => some t
    | (key, rest) =>
      match rest.dropWhile Text.isBlank with
      | '=' :: rest => do
        let (value, rest) ← pairValue? (rest.dropWhile Text.isBlank)
        let t ← t.setOption? (String.ofList key) (String.ofList value)
        readPairs? fuel t rest
      | _ => none

/-! ## URLs -/

/-- The number of a hexadecimal digit. -/
def hexOf? (b : UInt8) : Option UInt8 :=
  if 48 ≤ b && b ≤ 57 then some (b - 48)
  else if 97 ≤ b && b ≤ 102 then some (b - 87)
  else if 65 ≤ b && b ≤ 70 then some (b - 55)
  else none

/-- The bytes with every escape, a percent sign and two hexadecimal digits, replaced by the byte
that it stands for. -/
def unescapedBytes : Bytes → Bytes
  | 37 :: a :: b :: rest =>
    match hexOf? a, hexOf? b with
    | some x, some y => (16 * x + y) :: unescapedBytes rest
    | _, _ => 37 :: unescapedBytes (a :: b :: rest)
  | b :: rest => b :: unescapedBytes rest
  | [] => []

/-- The bytes that a part of a URL stands for. -/
def partBytes (cs : List Char) : Bytes := unescapedBytes (Text.utf8 (String.ofList cs))

/-- The text that a part of a URL stands for. -/
def partText? (cs : List Char) : Option String := Text.ofUtf8? (partBytes cs)

/-- The target with one more host. A host that is a path may hold any bytes. -/
def addHost? (t : Target) (cs : List Char) : Option Target :=
  let bytes := partBytes cs
  if bytes.head? = some 47 ∨ (Text.ofUtf8? bytes).isSome then some { t with hosts := t.hosts + 1 }
  else none

/-- The host and the port of a server; a host in brackets may hold colons. -/
def hostAndPort? (chunk : List Char) : Option (List Char × Option (List Char)) :=
  match chunk with
  | '[' :: rest =>
    match rest.span (· != ']') with
    | (_, []) => none
    | (host, _ :: []) => some (host, none)
    | (host, _ :: ':' :: port) => some (host, some port)
    | _ => none
  | _ =>
    match chunk.span (· != ':') with
    | (host, []) => some (host, none)
    | (host, _ :: port) => some (host, some port)

/-- The target with one more server. -/
def addServer? (t : Target) (chunk : List Char) : Option Target := do
  let (host, port) ← hostAndPort? chunk
  let t ← t.addHost? host
  let port ← partText? (port.getD ['5', '4', '3', '2'])
  t.setOption? "port" port

/-- The target with one more option of a URL. -/
def addParameter? (t : Target) (key value : List Char) : Option Target := do
  let key ← partText? key
  if key = "host" then t.addHost? value
  else
    let value ← partText? value
    t.setOption? key value

/-- The target with the options of a URL, separated by ampersands. -/
def addParameters? (t : Target) (cs : List Char) : Option Target :=
  if cs = [] then some t
  else
    let pieces := splitAtChar '&' cs
    let pieces := if pieces.getLast? = some [] then pieces.dropLast else pieces
    pieces.foldlM (fun t piece =>
      match piece.span (· != '=') with
      | (key, _ :: value) => t.addParameter? key value
      | (_, []) => none) t

/-- The target that a URL names, after its scheme. -/
def readUrl? (cs : List Char) : Option Target := do
  let afterUser ← match cs.span (· != '@') with
    | (_, []) => some cs
    | (user, _ :: rest) => (partText? (user.takeWhile (· != ':'))).map fun _ => rest
  let (servers, rest) := afterUser.span fun c => c != '/' && c != '?'
  let t ←
    if servers = [] then some {} else (splitAtChar ',' servers).foldlM addServer? ({} : Target)
  let rest ← match rest with
    | '/' :: path =>
      let (database, rest) := path.span (· != '?')
      (partText? database).map fun _ => rest
    | rest => some rest
  match rest with
  | '?' :: parameters => t.addParameters? parameters
  | _ => some t

/-- What a connection string names. -/
def ofString? (s : String) : Option Target :=
  let cs := s.toList
  let url := ["postgres://".toList, "postgresql://".toList].findSome? fun scheme =>
    if scheme.isPrefixOf cs then some (cs.drop scheme.length) else none
  match url with
  | some cs => readUrl? cs
  | none => readPairs? (cs.length + 1) {} cs

end Target

end Connection

end Tabular
