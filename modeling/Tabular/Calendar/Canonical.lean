import Tabular.Calendar.Instant
import Tabular.Calendar.Layout

/-!
# Canonical text of instants

Stores without temporal types keep instants as text of one of three shapes: a date
`YYYY-MM-DD`, a time of day `HH:MM:SS`, or both with a space between them.

- `TemporalShape.of?`: the shape of a text, decided by its characters alone.
- `Instant.parse`: the instant that a date or a date with time denotes.
- `Instant.canonical`: the text of an instant to the second, which `Instant.parse` reads back for
  the years 0 to 9999, but for strays.
-/

namespace Tabular

/-- The shapes of temporal text. -/
inductive TemporalShape where
  | date
  | timeOfDay
  | dateTime
deriving DecidableEq

namespace TemporalShape

/-- The fields and marks of a shape, in ASCII digits. -/
def layout : TemporalShape → Layout
  | date => [.digits 4, .mark '-', .digits 2, .mark '-', .digits 2]
  | timeOfDay => [.digits 2, .mark ':', .digits 2, .mark ':', .digits 2]
  | dateTime =>
    [.digits 4, .mark '-', .digits 2, .mark '-', .digits 2, .mark ' ',
      .digits 2, .mark ':', .digits 2, .mark ':', .digits 2]

/-- The text has this shape, whether or not its numbers name a date or a time. -/
def Matches (shape : TemporalShape) (s : String) : Prop := (shape.layout.read s.toList).isSome

instance (shape : TemporalShape) (s : String) : Decidable (shape.Matches s) := by
  unfold Matches
  infer_instance

/-- The shape of a text, if it has one; no text has two. -/
def of? (s : String) : Option TemporalShape :=
  [dateTime, date, timeOfDay].find? (·.Matches s)

end TemporalShape

/-- Why a text denotes no instant. -/
inductive FormatFault where
  /-- The text has none of the shapes. -/
  | unrecognized (text : String)
  /-- The text is a time of day, of no particular day. -/
  | noDate (text : String)
  /-- The text is shaped like a date that does not exist. -/
  | impossibleDate (text : String)
  /-- The text is shaped like a date with time that does not exist. -/
  | impossibleDateTime (text : String)
  /-- A fault found outside this library, in its own words. -/
  | reported (message : String)
deriving DecidableEq

/-- The wording of a fault. -/
def FormatFault.message : FormatFault → String
  | unrecognized text => "unrecognized date format: '" ++ text ++ "'"
  | noDate text => "time of day '" ++ text ++ "' has no date component"
  | impossibleDate text => "invalid date '" ++ text ++ "': input is out of range"
  | impossibleDateTime text => "invalid datetime '" ++ text ++ "': input is out of range"
  | reported message => message

namespace Instant

/-- The instant of the numbers year, month and day, and hour, minute and second if there are more;
a date alone is its midnight. -/
def ofNumbers? : List Nat → Option Instant
  | [year, month, day] => ofDate? ⟨year, month, day⟩
  | [year, month, day, hour, minute, second] => ofFields? ⟨year, month, day⟩ hour minute second
  | _ => none

/-- The instant that a text denotes, read by its shape. -/
def parse (s : String) : Except FormatFault Instant :=
  match TemporalShape.of? s with
  | none => .error (.unrecognized s)
  | some .timeOfDay => .error (.noDate s)
  | some .date =>
    match (TemporalShape.date.layout.read s.toList).bind ofNumbers? with
    | some t => .ok t
    | none => .error (.impossibleDate s)
  | some .dateTime =>
    match (TemporalShape.dateTime.layout.read s.toList).bind ofNumbers? with
    | some t => .ok t
    | none => .error (.impossibleDateTime s)

/-- The year in four digits; outside 0 to 9999 with a sign and at least four digits. -/
def yearText (year : Int) : List Char :=
  if 0 ≤ year ∧ year ≤ 9999 then Text.fixed 4 year.toNat
  else (if year < 0 then '-' else '+') :: Text.padded 4 year.natAbs

/-- The date of an instant, in the shape of a date. -/
def dateText (t : Instant) : List Char :=
  yearText t.date.year ++ '-' :: Text.fixed 2 t.date.month ++ '-' :: Text.fixed 2 t.date.day

/-- The time of day of an instant, to the second; a leap second is one second more than the one
before it, and so second 60 if it ends its minute. -/
def timeText (t : Instant) : List Char :=
  Text.fixed 2 t.hour ++ ':' :: Text.fixed 2 t.minute ++ ':' :: Text.fixed 2 t.second

/-- The text that stores keep for an instant. The part of the second that has passed is dropped. -/
def canonical (t : Instant) : String := String.ofList (t.dateText ++ ' ' :: t.timeText)

/-- The text of an instant in data exchange: the canonical text with `T` and `Z`. -/
def exchange (t : Instant) : String := String.ofList (t.dateText ++ 'T' :: t.timeText ++ ['Z'])

end Instant

end Tabular
