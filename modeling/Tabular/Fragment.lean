import Tabular.Value

/-!
# Statement fragments

Pieces of statement text with the parameters that their placeholders stand for. Parameters are
never written into the text; they keep the order of the placeholders.

Adjacent raw text is one part, so that a fragment has one form however it was put together.

- `Fragment.raw`, `Fragment.bind`, `++`, `Fragment.join`, `Fragment.parenthesized`: the ways to
  build fragments.
- `Fragment.render`: the text in a placeholder style; placeholders are numbered from one.
-/

namespace Tabular

/-- How a store writes placeholders. -/
inductive Placeholder where
  /-- A question mark for each parameter. -/
  | question
  /-- `$1`, `$2`, … in the order of the parameters. -/
  | numbered
deriving DecidableEq

/-- A part of a statement. -/
inductive Part where
  | raw (text : String)
  | placeholder
deriving DecidableEq

/-- Statement text with the parameters of its placeholders in order. -/
structure Fragment where
  parts : List Part
  params : List Value

namespace Fragment

/-- The fragment without text and parameters. -/
def empty : Fragment := ⟨[], []⟩

/-- A part put in front of parts: raw text is joined to raw text, and no empty text is kept. -/
def consPart : Part → List Part → List Part
  | .raw text, .raw next :: parts => .raw (text ++ next) :: parts
  | .raw text, parts => if text = "" then parts else .raw text :: parts
  | .placeholder, parts => .placeholder :: parts

/-- Parts put after parts. -/
def appendParts : List Part → List Part → List Part
  | [], parts => parts
  | [part], parts => consPart part parts
  | part :: next :: rest, parts => part :: appendParts (next :: rest) parts

/-- The fragment of some text without placeholders. -/
def raw (text : String) : Fragment := ⟨consPart (.raw text) [], []⟩

/-- The placeholder of a value. Instants are bound as canonical text. -/
def bind (v : Value) : Fragment := ⟨[.placeholder], [v.encoded]⟩

/-- One fragment after another. -/
protected def append (a b : Fragment) : Fragment :=
  ⟨appendParts a.parts b.parts, a.params ++ b.params⟩

instance : Append Fragment := ⟨Fragment.append⟩

/-- The fragment has neither text nor placeholders. -/
def isEmpty (a : Fragment) : Bool := a.parts.isEmpty

/-- The fragments in order with the separator between them; empty ones are left out. -/
def join (separator : String) (fragments : List Fragment) : Fragment :=
  (fragments.filter fun a => !a.isEmpty).foldl
    (fun out a => if out.isEmpty then a else out ++ raw separator ++ a) empty

/-- The fragment in parentheses. -/
def parenthesized (a : Fragment) : Fragment := raw "(" ++ a ++ raw ")"

/-- Equal parts and equal parameters. -/
instance : BEq Fragment := ⟨fun a b => a.parts == b.parts && a.params == b.params⟩

/-- The text of a placeholder; `index` counts the placeholders before it. -/
def placeholderText : Placeholder → Nat → String
  | .question, _ => "?"
  | .numbered, index => "$" ++ toString (index + 1)

/-- The text of parts that come after `index` placeholders. -/
def renderFrom (style : Placeholder) : Nat → List Part → String
  | _, [] => ""
  | index, .raw text :: parts => text ++ renderFrom style index parts
  | index, .placeholder :: parts =>
    placeholderText style index ++ renderFrom style (index + 1) parts

/-- The text of a statement in a placeholder style. -/
def render (a : Fragment) (style : Placeholder) : String := renderFrom style 0 a.parts

end Fragment

end Tabular
