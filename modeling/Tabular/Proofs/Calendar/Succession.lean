import Mathlib.Data.Int.Init
import Tabular.Proofs.Calendar.Days

/-!
# One day after another

The day number of a date by counting alone: months follow each other by their lengths and years by
their twelve months, and 1970-01-01 is the day zero.

- `Date.next`, `Date.IsDay`: the day after a date, and how many days after the first one a date is.
- `Date.toDays_next`: the day number of the next day is the next number.
- `Date.isDay_iff`: every date of the calendar has one day number, and `Date.toDays` gives it.
-/

namespace Tabular

namespace Date

/-- The day after a date. -/
def next (d : Date) : Date :=
  if d.day < monthLength d.year d.month then ⟨d.year, d.month, d.day + 1⟩
  else if d.month < 12 then ⟨d.year, d.month + 1, 1⟩
  else ⟨d.year + 1, 1, 1⟩

/-- The date is so many days after 1970-01-01, counted from one day to the next. -/
inductive IsDay : Date → Int → Prop where
  | epoch : IsDay ⟨1970, 1, 1⟩ 0
  | next {d : Date} {n : Int} (h : IsDay d n) : IsDay d.next (n + 1)
  | previous {d : Date} {n : Int} (hvalid : d.Valid) (h : IsDay d.next (n + 1)) : IsDay d n

theorem monthLength_pos {year : Int} {month : Nat} (hfirst : 1 ≤ month) (hlast : month ≤ 12) :
    1 ≤ monthLength year month := by
  obtain ⟨m, rfl⟩ : ∃ m, month = m + 1 := Nat.exists_eq_add_one.mpr hfirst
  have hlt : m < (monthLengths year).length := by
    rw [length_monthLengths]
    exact hlast
  have hbounds := bounds_of_mem_monthLengths (List.getElem_mem hlt)
  rw [monthLength, List.getD_eq_getElem?_getD, List.getElem?_eq_getElem hlt, Option.getD_some]
  omega

theorem valid_next {d : Date} (h : d.Valid) : d.next.Valid := by
  obtain ⟨hmonth, hmonth', hday, hday'⟩ := h
  unfold next
  split
  next hlt => exact ⟨hmonth, hmonth', Nat.succ_pos _, hlt⟩
  next =>
    split
    next hlt => exact ⟨Nat.succ_pos _, hlt, Nat.le_refl 1, monthLength_pos (Nat.succ_pos _) hlt⟩
    next =>
      have hjanuary : 1 ≤ monthLength (d.year + 1) 1 := monthLength_pos (Nat.le_refl 1) (by decide)
      exact ⟨Nat.le_refl 1, Nat.succ_pos 11, Nat.le_refl 1, hjanuary⟩

theorem total_take_succ (ls : List Nat) (m : Nat) :
    total (ls.take (m + 1)) = total (ls.take m) + ls.getD m 0 := by
  induction ls generalizing m with
  | nil => simp [total]
  | cons l ls ih =>
    cases m with
    | zero => simp [total]
    | succ m =>
      rw [List.take_succ_cons, List.take_succ_cons, total, total, ih, List.getD_cons_succ]
      omega

/-- The next month begins where a month ends. -/
theorem daysBeforeMonth_succ (year : Int) {month : Nat} (h : 1 ≤ month) :
    daysBeforeMonth year (month + 1) = daysBeforeMonth year month + monthLength year month := by
  obtain ⟨m, rfl⟩ : ∃ m, month = m + 1 := Nat.exists_eq_add_one.mpr h
  exact total_take_succ (monthLengths year) m

theorem daysBeforeMonth_twelve_succ (year : Int) :
    daysBeforeMonth year (12 + 1) = yearLength year :=
  total_monthLengths year

theorem toDays_next {d : Date} (h : d.Valid) : d.next.toDays = d.toDays + 1 := by
  obtain ⟨year, month, day⟩ := d
  obtain ⟨hmonth, hmonth', hday, hday'⟩ := h
  dsimp only at hmonth hmonth' hday hday'
  unfold next toDays
  dsimp only
  have hsucc := daysBeforeMonth_succ year hmonth
  split
  next hlt =>
    dsimp only
    omega
  next hlast =>
    split
    next hlt =>
      dsimp only
      omega
    next hend =>
      -- the year ends with its twelfth month
      obtain rfl : month = 12 := by omega
      have hyear := daysBeforeYear_succ year
      have hlength := daysBeforeMonth_twelve_succ year
      have hfirst : daysBeforeMonth (year + 1) 1 = 0 := rfl
      dsimp only
      omega

theorem isDay_spec {d : Date} {n : Int} (h : IsDay d n) : d.Valid ∧ d.toDays = n := by
  induction h with
  | epoch => exact ⟨by decide, by decide⟩
  | next h ih =>
    obtain ⟨hvalid, hdays⟩ := ih
    exact ⟨valid_next hvalid, by rw [toDays_next hvalid, hdays]⟩
  | previous hvalid h ih =>
    obtain ⟨-, hdays⟩ := ih
    rw [toDays_next hvalid] at hdays
    exact ⟨hvalid, by omega⟩

theorem next_ofDays (n : Int) : (ofDays n).next = ofDays (n + 1) := by
  have hvalid := valid_ofDays n
  rw [← ofDays_toDays (valid_next hvalid), toDays_next hvalid, toDays_ofDays]

theorem isDay_ofDays (n : Int) : IsDay (ofDays n) n := by
  induction n with
  | zero => exact .epoch
  | succ n ih =>
    rw [← next_ofDays]
    exact .next ih
  | pred n ih =>
    refine .previous (valid_ofDays _) ?_
    rw [next_ofDays]
    rwa [show -(n : Int) - 1 + 1 = -n by omega]

/-- The day number of a date is what counting from day to day comes to. -/
theorem isDay_iff {d : Date} {n : Int} : IsDay d n ↔ d.Valid ∧ d.toDays = n := by
  constructor
  · exact isDay_spec
  · rintro ⟨hvalid, rfl⟩
    have h := isDay_ofDays d.toDays
    rwa [ofDays_toDays hvalid] at h

end Date

end Tabular
