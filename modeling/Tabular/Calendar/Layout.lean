import Tabular.Text.Decimal

/-!
# Fixed layouts

A layout is a row of number fields of fixed width with marks between them. One layout both writes
a list of numbers and reads it back, and the two are inverse to each other.

- `Layout.read_write`: what a layout writes for numbers that fit, it reads as those numbers.
- `Layout.write_of_read`: a text that a layout reads is the one it writes for the numbers read.
-/

namespace Tabular

/-- One place of a layout. -/
inductive Slot where
  /-- A number in exactly so many ASCII digits. -/
  | digits (width : Nat)
  /-- A character that stands as it is. -/
  | mark (c : Char)
deriving DecidableEq

/-- Slots in the order of the text. -/
abbrev Layout := List Slot

namespace Layout

/-- The numbers of a text that has exactly this layout. -/
def read : Layout → List Char → Option (List Nat)
  | [], [] => some []
  | [], _ :: _ => none
  | .mark _ :: _, [] => none
  | .mark m :: rest, c :: cs => if c = m then read rest cs else none
  | .digits w :: rest, cs =>
    let ds := cs.take w
    if ds.length = w ∧ ds.all Char.isDigit then
      (read rest (cs.drop w)).map (Text.value ds :: ·)
    else none

/-- The text of this layout for some numbers; each number is cut to its last digits. -/
def write : Layout → List Nat → List Char
  | [], _ => []
  | .mark m :: rest, ns => m :: write rest ns
  | .digits w :: rest, [] => Text.fixed w 0 ++ write rest []
  | .digits w :: rest, n :: ns => Text.fixed w n ++ write rest ns

/-- The numbers are as many as the fields, and each one fits its field. -/
def Fits : Layout → List Nat → Prop
  | [], ns => ns = []
  | .mark _ :: rest, ns => Fits rest ns
  | .digits _ :: _, [] => False
  | .digits w :: rest, n :: ns => n < Nat.pow 10 w ∧ Fits rest ns

theorem read_write (l : Layout) (ns : List Nat) (h : Fits l ns) :
    read l (write l ns) = some ns := by
  induction l generalizing ns with
  | nil =>
    cases h
    rfl
  | cons s l ih =>
    cases s with
    | mark m => simp [read, write, ih ns h]
    | digits w =>
      cases ns with
      | nil => exact h.elim
      | cons n ns =>
        have hall : (Text.fixed w n).all Char.isDigit = true := by
          rw [List.all_eq_true]
          exact fun c hc => Text.isDigit_of_mem_fixed hc
        simp [read, write, hall, Text.value_fixed h.1, ih ns h.2]

theorem write_of_read (l : Layout) (cs : List Char) (ns : List Nat) (h : read l cs = some ns) :
    write l ns = cs := by
  induction l generalizing cs ns with
  | nil => cases cs <;> simp_all [read, write]
  | cons s l ih =>
    cases s with
    | mark m =>
      cases cs with
      | nil => simp [read] at h
      | cons c cs =>
        simp only [read, Option.ite_none_right_eq_some] at h
        rw [write, ih cs ns h.2, h.1]
    | digits w =>
      simp only [read, Option.ite_none_right_eq_some, Option.map_eq_some_iff] at h
      obtain ⟨⟨hw, hd⟩, ms, hms, rfl⟩ := h
      rw [write, ih _ _ hms, Text.fixed_value w _ hw (by simpa using hd), List.take_append_drop]

end Layout

end Tabular
