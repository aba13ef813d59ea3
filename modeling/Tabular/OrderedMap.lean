/-!
# Maps in insertion order

Keys with values, in the order in which the keys came. Keys are told apart by a name: two keys of
one name are one entry.

- `OrderedMap.alter`: the one way to write. An entry that is there keeps its place and its key, a
  new one goes to the end.
- `OrderedMap.get?_alter`: writing to a name changes what that name has, and nothing else.
- `OrderedMap.take`: the value of an entry and the map without it, the others in their order.
- `OrderedMap.mapM`, `OrderedMap.tryMap`: values replaced in order.
-/

namespace Tabular

/-- Keys that are told apart by a name. -/
class Named (κ : Type) where
  name : κ → String

instance : Named String := ⟨id⟩

@[simp] theorem name_string (s : String) : Named.name s = s := rfl

/-- Entries in the order in which their keys came. -/
structure OrderedMap (κ : Type) (α : Type) where
  entries : List (κ × α)

namespace OrderedMap

variable {κ α : Type} [Named κ]

/-- The map without entries. -/
def empty : OrderedMap κ α := ⟨[]⟩

instance : EmptyCollection (OrderedMap κ α) := ⟨empty⟩

/-- The number of entries. -/
def size (m : OrderedMap κ α) : Nat := m.entries.length

/-- The map has no entry. -/
def isEmpty (m : OrderedMap κ α) : Bool := m.entries.isEmpty

/-- The names of the keys, in order. -/
def names (m : OrderedMap κ α) : List String := m.entries.map fun e => Named.name e.1

/-- The value of the entry with this name. -/
def get? (m : OrderedMap κ α) (name : String) : Option α :=
  (m.entries.find? fun e => Named.name e.1 = name).map Prod.snd

/-- There is an entry with this name. -/
def contains (m : OrderedMap κ α) (name : String) : Bool := (m.get? name).isSome

/-- Entries with the value of one key replaced, or that key added at the end. -/
def alterEntries (key : κ) (f : Option α → α) : List (κ × α) → List (κ × α)
  | [] => [(key, f none)]
  | (k, a) :: es =>
    if Named.name k = Named.name key then (k, f (some a)) :: es
    else (k, a) :: alterEntries key f es

/-- The map with a new value for a key, made from the value that it has now. -/
def alter (m : OrderedMap κ α) (key : κ) (f : Option α → α) : OrderedMap κ α :=
  ⟨alterEntries key f m.entries⟩

/-- The map with this value for a key. -/
def insert (m : OrderedMap κ α) (key : κ) (a : α) : OrderedMap κ α := m.alter key fun _ => a

/-- The map of entries inserted one after another. -/
def ofList (es : List (κ × α)) : OrderedMap κ α := es.foldl (fun m e => m.insert e.1 e.2) empty

/-- Entries without the first one of a name. -/
def eraseEntries (name : String) : List (κ × α) → List (κ × α)
  | [] => []
  | (k, a) :: es => if Named.name k = name then es else (k, a) :: eraseEntries name es

/-- The map without the entry of this name. -/
def erase (m : OrderedMap κ α) (name : String) : OrderedMap κ α := ⟨eraseEntries name m.entries⟩

/-- The value of this name, and the map without its entry. -/
def take (m : OrderedMap κ α) (name : String) : Option α × OrderedMap κ α :=
  (m.get? name, m.erase name)

/-- The map with every value replaced. -/
def map {β : Type} (m : OrderedMap κ α) (f : α → β) : OrderedMap κ β :=
  ⟨m.entries.map fun e => (e.1, f e.2)⟩

/-- The map with every value replaced in order by what an action gives for it. -/
def mapM {μ : Type → Type} [Monad μ] {β : Type} (m : OrderedMap κ α) (f : α → μ β) :
    μ (OrderedMap κ β) := do
  return ⟨← m.entries.mapM fun e => do return (e.1, ← f e.2)⟩

/-- The map with every value replaced in order, or the failure of the first that cannot be. -/
def tryMap {β ε : Type} (m : OrderedMap κ α) (f : α → Except ε β) : Except ε (OrderedMap κ β) :=
  m.mapM f

/-- Same keys in the same order, with equal values. -/
instance [BEq κ] [BEq α] : BEq (OrderedMap κ α) := ⟨fun m n => m.entries == n.entries⟩

theorem find?_alterEntries (key : κ) (f : Option α → α) (name : String) (es : List (κ × α)) :
    ((alterEntries key f es).find? fun e => Named.name e.1 = name).map Prod.snd =
      if Named.name key = name then
        some (f ((es.find? fun e => Named.name e.1 = name).map Prod.snd))
      else (es.find? fun e => Named.name e.1 = name).map Prod.snd := by
  induction es with
  | nil => by_cases h : Named.name key = name <;> simp [alterEntries, h]
  | cons e es ih =>
    obtain ⟨k, a⟩ := e
    by_cases hk : Named.name k = Named.name key
    · by_cases h : Named.name key = name <;> simp [alterEntries, hk, h]
    · by_cases hn : Named.name k = name
      · subst hn
        simp [alterEntries, hk, Ne.symm hk]
      · simp [alterEntries, hk, hn, ih]

/-- Writing to a name changes what that name has, and nothing else. -/
theorem get?_alter (m : OrderedMap κ α) (key : κ) (f : Option α → α) (name : String) :
    (m.alter key f).get? name =
      if Named.name key = name then some (f (m.get? name)) else m.get? name :=
  find?_alterEntries key f name m.entries

end OrderedMap

end Tabular
