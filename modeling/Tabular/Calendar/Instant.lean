import Tabular.Calendar.Date

/-!
# Instants

Points of universal time to the nanosecond, leap seconds included, in the years -262143 to 262142.

A leap second is a second running on: it has the seconds of the one before it and nanoseconds from
one thousand million up. Those of clocks end their minute, so that the second before them is `:59`,
and no other can be made of parts or of fields. But any second can run on once its nanoseconds are
set, and then it is shown like the second after it. Such a leap second is a stray.

- `Instant.ofParts?`: the instant with given seconds and nanoseconds, if there is one.
- `Instant.ofFields?`: the instant with given calendar and clock fields, if there is one.
- `Instant.wholeSecond`: the instant without the part of its second that has passed.
- `Instant.Stray`: the instant lies in a leap second that does not end its minute.
-/

namespace Tabular

/-- Seconds since 1970-01-01 00:00:00 and nanoseconds of that second. -/
structure Instant where
  seconds : Int
  nanos : Nat
  nanos_lt : nanos < 2000000000
  first_le : -8334601228800 ≤ seconds
  le_last : seconds ≤ 8210266876799
deriving DecidableEq

namespace Instant

@[ext] theorem ext {a b : Instant} (hs : a.seconds = b.seconds) (hn : a.nanos = b.nanos) :
    a = b := by
  cases a
  cases b
  simp_all

/-- The instant with these seconds and nanoseconds. Strays are not made so. -/
def ofParts? (seconds : Int) (nanos : Nat) : Option Instant :=
  if h : nanos < 2000000000 ∧ (1000000000 ≤ nanos → seconds % 60 = 59) ∧
      -8334601228800 ≤ seconds ∧ seconds ≤ 8210266876799 then
    some ⟨seconds, nanos, h.1, h.2.2.1, h.2.2.2⟩
  else none

/-- The instant is within a leap second. -/
def isLeap (t : Instant) : Bool := 1000000000 ≤ t.nanos

/-- The instant is within a leap second that does not end its minute. -/
def Stray (t : Instant) : Prop := t.isLeap = true ∧ t.seconds % 60 ≠ 59

instance (t : Instant) : Decidable t.Stray :=
  inferInstanceAs (Decidable (t.isLeap = true ∧ t.seconds % 60 ≠ 59))

theorem ends_minute {t : Instant} (h : ¬ t.Stray) (hleap : t.isLeap = true) :
    t.seconds % 60 = 59 :=
  Decidable.not_not.mp fun hne => h ⟨hleap, hne⟩

/-- Every instant but a stray is made of its parts. -/
theorem ofParts?_seconds_nanos {t : Instant} (h : ¬ t.Stray) :
    ofParts? t.seconds t.nanos = some t := by
  unfold ofParts?
  rw [dif_pos ⟨t.nanos_lt, fun hleap => ends_minute h (decide_eq_true hleap), t.first_le,
    t.le_last⟩]

/-- The day number of the instant, counted from 1970-01-01. -/
def days (t : Instant) : Int := t.seconds / 86400

/-- The calendar date of the instant. -/
def date (t : Instant) : Date := Date.ofDays t.days

/-- The seconds since midnight; a leap second counts with the second before it. -/
def secondOfDay (t : Instant) : Nat := (t.seconds % 86400).toNat

/-- The hour, from 0 to 23. -/
def hour (t : Instant) : Nat := t.secondOfDay / 3600

/-- The minute, from 0 to 59. -/
def minute (t : Instant) : Nat := t.secondOfDay / 60 % 60

/-- The second as a clock shows it, one more within a leap second. -/
def second (t : Instant) : Nat := t.secondOfDay % 60 + if t.isLeap then 1 else 0

/-- The start of the second that the instant lies in; a leap second is a second of its own. -/
def wholeSecond (t : Instant) : Instant where
  seconds := t.seconds
  nanos := if t.isLeap then 1000000000 else 0
  nanos_lt := by split <;> decide
  first_le := t.first_le
  le_last := t.le_last

/-- The instant of a date and a time of day. Second 60 is the leap second of any minute. -/
def ofFields? (date : Date) (hour minute second : Nat) : Option Instant :=
  if date.Valid ∧ hour ≤ 23 ∧ minute ≤ 59 ∧ second ≤ 60 then
    ofParts? (date.toDays * 86400 + hour * 3600 + minute * 60 + min second 59)
      (if second = 60 then 1000000000 else 0)
  else none

/-- Midnight at the start of a date. -/
def ofDate? (date : Date) : Option Instant := ofFields? date 0 0 0

/-- Nanoseconds since 1970-01-01 00:00:00, those of a leap second added to the second before it. -/
def totalNanos (t : Instant) : Int := t.seconds * 1000000000 + t.nanos

end Instant

end Tabular
