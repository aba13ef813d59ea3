/-!
# Civil dates

The proleptic Gregorian calendar over all years, with day numbers counted from 1970-01-01.

- `Date.toDays`, `Date.ofDays`: a date and its day number.
- `yearOf_bounds`: the year of a day number is the one whose days it lies among.
-/

namespace Tabular

/-- A year, a month counted from one and a day counted from one. -/
structure Date where
  year : Int
  month : Nat
  day : Nat
deriving DecidableEq

namespace Date

/-- Every fourth year is a leap year, of the centuries every fourth one. -/
def isLeap (year : Int) : Bool := year % 4 == 0 && (year % 100 != 0 || year % 400 == 0)

/-- The lengths of the twelve months of a year. -/
def monthLengths (year : Int) : List Nat :=
  [31, if isLeap year then 29 else 28, 31, 30, 31, 30, 31, 31, 30, 31, 30, 31]

/-- The days of so many months. -/
def total : List Nat → Nat
  | [] => 0
  | l :: ls => l + total ls

/-- The number of days of a year. -/
def yearLength (year : Int) : Nat := if isLeap year then 366 else 365

theorem total_monthLengths (year : Int) : total (monthLengths year) = yearLength year := by
  unfold monthLengths yearLength
  split <;> rfl

/-- The number of days of a month; no day for a month that does not exist. -/
def monthLength (year : Int) (month : Nat) : Nat :=
  match month with
  | 0 => 0
  | m + 1 => (monthLengths year).getD m 0

/-- The date exists in the calendar. -/
def Valid (d : Date) : Prop :=
  1 ≤ d.month ∧ d.month ≤ 12 ∧ 1 ≤ d.day ∧ d.day ≤ monthLength d.year d.month

instance (d : Date) : Decidable d.Valid := by unfold Valid; infer_instance

/-- The days from 0001-01-01 to the first day of a year. -/
def daysBeforeYear (year : Int) : Int :=
  365 * (year - 1) + (year - 1) / 4 - (year - 1) / 100 + (year - 1) / 400

theorem daysBeforeYear_succ (year : Int) :
    daysBeforeYear (year + 1) = daysBeforeYear year + yearLength year := by
  unfold daysBeforeYear yearLength isLeap
  simp only [beq_iff_eq, bne_iff_ne, Bool.and_eq_true, Bool.or_eq_true, ne_eq]
  split <;> omega

/-- The days of a year before the first of a month. -/
def daysBeforeMonth (year : Int) (month : Nat) : Nat := total ((monthLengths year).take (month - 1))

/-- The days from 0001-01-01 to 1970-01-01. -/
def epoch : Int := 719162

/-- The days from 1970-01-01 to the date. -/
def toDays (d : Date) : Int :=
  daysBeforeYear d.year + daysBeforeMonth d.year d.month + (d.day : Int) - 1 - epoch

/-- The year of the `n`-th day after 0001-01-01: the mean length of a year leads to the year or to
one of its neighbours. -/
def yearOf (n : Int) : Int :=
  let guess := 400 * n / 146097 + 1
  if n < daysBeforeYear guess then guess - 1
  else if daysBeforeYear (guess + 1) ≤ n then guess + 1
  else guess

theorem yearOf_bounds (n : Int) :
    daysBeforeYear (yearOf n) ≤ n ∧ n < daysBeforeYear (yearOf n + 1) := by
  simp only [yearOf]
  split
  · unfold daysBeforeYear at *
    omega
  · split
    · unfold daysBeforeYear at *
      omega
    · omega

/-- The index of the month that holds a day of the year, and the days of that month before it. -/
def locate : List Nat → Nat → Nat × Nat
  | [], n => (0, n)
  | l :: ls, n =>
    if n < l then (0, n)
    else
      let (month, rest) := locate ls (n - l)
      (month + 1, rest)

theorem locate_total_take (ls : List Nat) (m d l : Nat) (hl : ls[m]? = some l) (hd : d < l) :
    locate ls (total (ls.take m) + d) = (m, d) := by
  induction ls generalizing m with
  | nil => simp at hl
  | cons k ls ih =>
    cases m with
    | zero =>
      simp only [List.getElem?_cons_zero, Option.some.injEq] at hl
      simp [total, locate, hl, hd]
    | succ m =>
      simp only [List.getElem?_cons_succ] at hl
      have h := ih m hl
      have hn : ¬ (k + total (ls.take m) + d < k) := by omega
      have hs : k + total (ls.take m) + d - k = total (ls.take m) + d := by omega
      simp [total, locate, hn, hs, h]

/-- The date `n` days after 1970-01-01. -/
def ofDays (n : Int) : Date :=
  let n := n + epoch
  let year := yearOf n
  let (month, rest) := locate (monthLengths year) (n - daysBeforeYear year).toNat
  ⟨year, month + 1, rest + 1⟩

end Date

end Tabular
