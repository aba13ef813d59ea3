import Tabular.Calendar.Date

/-!
# Days and dates

The date of a day number and the day number of a date are inverse to each other, over all years.

- `Date.valid_ofDays`, `Date.toDays_ofDays`: every day has a date of the calendar, and that date
  leads back to the day.
- `Date.ofDays_toDays`: every date of the calendar is the date of its day.
-/

namespace Tabular

namespace Date

/-- The months before a day and the days of its month make up the day of the year. -/
theorem locate_of_lt {ls : List Nat} {n : Nat} (h : n < total ls) :
    ∃ m d l, locate ls n = (m, d) ∧ ls[m]? = some l ∧ d < l ∧ total (ls.take m) + d = n := by
  induction ls generalizing n with
  | nil => exact absurd h (Nat.not_lt_zero n)
  | cons l ls ih =>
    rw [total] at h
    by_cases hn : n < l
    · -- the day lies in the first month
      refine ⟨0, n, l, ?_, rfl, hn, ?_⟩
      · rw [locate, if_pos hn]
      · simp [total]
    · obtain ⟨m, d, k, hlocate, hk, hd, htotal⟩ := @ih (n - l) (by omega)
      refine ⟨m + 1, d, k, ?_, ?_, hd, ?_⟩
      · rw [locate, if_neg hn, hlocate]
      · rw [List.getElem?_cons_succ, hk]
      · rw [List.take_succ_cons, total]
        omega

/-- A day of a month is a day of the year. -/
theorem total_take_add_lt {ls : List Nat} {m d l : Nat} (hl : ls[m]? = some l) (hd : d < l) :
    total (ls.take m) + d < total ls := by
  induction ls generalizing m with
  | nil => cases hl
  | cons k ls ih =>
    cases m with
    | zero =>
      cases hl
      simp only [List.take_zero, total]
      omega
    | succ m =>
      have hlt := ih hl
      rw [List.take_succ_cons, total, total]
      omega

theorem length_monthLengths (year : Int) : (monthLengths year).length = 12 := rfl

theorem bounds_of_mem_monthLengths {year : Int} {l : Nat} (h : l ∈ monthLengths year) :
    28 ≤ l ∧ l ≤ 31 := by
  simp only [monthLengths, List.mem_cons, List.not_mem_nil, or_false] at h
  split at h
  · omega
  · omega

/-- No month is longer than 31 days. -/
theorem monthLength_le (year : Int) (month : Nat) : monthLength year month ≤ 31 := by
  cases month with
  | zero => exact Nat.zero_le _
  | succ m =>
    rw [monthLength, List.getD_eq_getElem?_getD]
    cases hl : (monthLengths year)[m]? with
    | none => exact Nat.zero_le _
    | some l => exact (bounds_of_mem_monthLengths (List.mem_of_getElem? hl)).2

/-- The day of its year that a day is, counted from zero. -/
theorem dayOfYear_lt (n : Int) :
    (n - daysBeforeYear (yearOf n)).toNat < total (monthLengths (yearOf n)) := by
  obtain ⟨hle, hlt⟩ := yearOf_bounds n
  rw [daysBeforeYear_succ] at hlt
  rw [total_monthLengths]
  omega

/-- The year, the month and the day in the month of a day. -/
theorem ofDays_spec (n : Int) : ∃ m d l,
    ofDays n = ⟨yearOf (n + epoch), m + 1, d + 1⟩ ∧
      (monthLengths (yearOf (n + epoch)))[m]? = some l ∧ d < l ∧
      daysBeforeYear (yearOf (n + epoch)) +
        (total ((monthLengths (yearOf (n + epoch))).take m) + d : Nat) = n + epoch := by
  obtain ⟨m, d, l, hlocate, hl, hd, htotal⟩ := locate_of_lt (dayOfYear_lt (n + epoch))
  refine ⟨m, d, l, ?_, hl, hd, ?_⟩
  · rw [ofDays]
    dsimp only
    rw [hlocate]
  · have hle := (yearOf_bounds (n + epoch)).1
    omega

theorem year_ofDays (n : Int) : (ofDays n).year = yearOf (n + epoch) := by
  obtain ⟨m, d, l, hdate, -⟩ := ofDays_spec n
  rw [hdate]

/-- Every day has a date of the calendar. -/
theorem valid_ofDays (n : Int) : (ofDays n).Valid := by
  obtain ⟨m, d, l, hdate, hl, hd, -⟩ := ofDays_spec n
  have hm : m < 12 := by
    have hlt := (List.getElem?_eq_some_iff.mp hl).1
    rwa [length_monthLengths] at hlt
  rw [hdate]
  refine ⟨by simp, Nat.succ_le_of_lt hm, by simp, ?_⟩
  show d + 1 ≤ (monthLengths _).getD m 0
  rw [List.getD_eq_getElem?_getD, hl]
  exact hd

/-- The date of a day leads back to the day. -/
theorem toDays_ofDays (n : Int) : (ofDays n).toDays = n := by
  obtain ⟨m, d, l, hdate, -, -, hsum⟩ := ofDays_spec n
  have hmonth : daysBeforeMonth (yearOf (n + epoch)) (m + 1) =
      total ((monthLengths (yearOf (n + epoch))).take m) := rfl
  rw [hdate, toDays]
  dsimp only
  rw [hmonth]
  omega

/-- Years do not overlap. -/
theorem daysBeforeYear_mono {y z : Int} (h : y ≤ z) : daysBeforeYear y ≤ daysBeforeYear z := by
  unfold daysBeforeYear
  omega

/-- A day lies in one year only. -/
theorem yearOf_eq {n y : Int} (hle : daysBeforeYear y ≤ n) (hlt : n < daysBeforeYear (y + 1)) :
    yearOf n = y := by
  obtain ⟨hle', hlt'⟩ := yearOf_bounds n
  rcases Int.lt_trichotomy (yearOf n) y with h | h | h
  · -- the earlier year has ended before the later one begins
    have hmono := @daysBeforeYear_mono (yearOf n + 1) y (by omega)
    omega
  · exact h
  · have hmono := @daysBeforeYear_mono (y + 1) (yearOf n) (by omega)
    omega

/-- Every date of the calendar is the date of its day. -/
theorem ofDays_toDays {date : Date} (h : date.Valid) : ofDays date.toDays = date := by
  obtain ⟨year, month, day⟩ := date
  obtain ⟨hmonth, hmonth', hday, hday'⟩ := h
  -- dates count months and days from one, the places in a year are counted from zero
  obtain ⟨m, rfl⟩ : ∃ m, month = m + 1 := Nat.exists_eq_add_one.mpr hmonth
  obtain ⟨d, rfl⟩ : ∃ d, day = d + 1 := Nat.exists_eq_add_one.mpr hday
  obtain ⟨l, hl⟩ : ∃ l, (monthLengths year)[m]? = some l := by
    have hlt : m < (monthLengths year).length := by
      rw [length_monthLengths]
      exact hmonth'
    exact ⟨_, List.getElem?_eq_getElem hlt⟩
  have hd : d < l := by
    have hlength : monthLength year (m + 1) = l := by
      rw [monthLength, List.getD_eq_getElem?_getD, hl]
      rfl
    dsimp only at hday'
    omega
  have hlocate := locate_total_take (monthLengths year) m d l hl hd
  have hbound := total_take_add_lt hl hd
  have hmonths : daysBeforeMonth year (m + 1) = total ((monthLengths year).take m) := rfl
  have hdays : toDays ⟨year, m + 1, d + 1⟩ + epoch =
      daysBeforeYear year + (total ((monthLengths year).take m) + d : Nat) := by
    rw [toDays]
    dsimp only
    rw [hmonths]
    omega
  have hyear : yearOf (toDays ⟨year, m + 1, d + 1⟩ + epoch) = year := by
    refine yearOf_eq ?_ ?_
    · omega
    · rw [daysBeforeYear_succ, ← total_monthLengths]
      omega
  have hrest : (toDays ⟨year, m + 1, d + 1⟩ + epoch - daysBeforeYear year).toNat =
      total ((monthLengths year).take m) + d := by
    omega
  rw [ofDays]
  dsimp only
  rw [hyear, hrest, hlocate]

/-- The days of the years 0 to 9999. -/
theorem bounds_of_year {n : Int} (hfirst : 0 ≤ (ofDays n).year) (hlast : (ofDays n).year ≤ 9999) :
    -719528 ≤ n ∧ n ≤ 2932896 := by
  obtain ⟨hle, hlt⟩ := yearOf_bounds (n + epoch)
  rw [← year_ofDays] at hle hlt
  have hlow : daysBeforeYear 0 ≤ daysBeforeYear (ofDays n).year := daysBeforeYear_mono hfirst
  have hhigh : daysBeforeYear ((ofDays n).year + 1) ≤ daysBeforeYear 10000 :=
    daysBeforeYear_mono (by omega)
  rw [show daysBeforeYear 0 = -366 from rfl] at hlow
  rw [show daysBeforeYear 10000 = 3652059 from rfl] at hhigh
  rw [show epoch = 719162 from rfl] at hle hlt
  omega

end Date

end Tabular
