import Tabular.Calendar.Canonical
import Tabular.Proofs.Calendar.Days

/-!
# Reading canonical text back

- `Instant.kept`: what canonical text keeps of an instant. Strays are kept as the second that they
  are shown like, all other instants as the second that they lie in.
- `Instant.ofFields?_fields`: the calendar and clock fields of an instant lead back to what is kept.
- `Instant.parse_canonical`: so does canonical text of the years 0 to 9999.
- `Instant.seconds_bounds`: where the instants of these years lie.
-/

namespace Tabular

namespace Instant

/-! ## Clock fields -/

theorem secondOfDay_eq (t : Instant) : (t.secondOfDay : Int) = t.seconds % 86400 :=
  Int.toNat_of_nonneg (Int.emod_nonneg _ (by decide))

theorem secondOfDay_lt (t : Instant) : t.secondOfDay < 86400 := by
  have hlt := Int.emod_lt_of_pos t.seconds (by decide : (0 : Int) < 86400)
  have heq := t.secondOfDay_eq
  omega

/-- A leap second that ends its minute follows second 59. -/
theorem secondOfDay_of_isLeap {t : Instant} (h : ¬ t.Stray) (hleap : t.isLeap = true) :
    t.secondOfDay % 60 = 59 := by
  have heq := t.secondOfDay_eq
  have hends := ends_minute h hleap
  omega

theorem second_le (t : Instant) : t.second ≤ 60 := by
  rw [second]
  split
  · omega
  · omega

/-- The second is that of the minute, and 60 exactly within a leap second. -/
theorem second_spec {t : Instant} (h : ¬ t.Stray) :
    min t.second 59 = t.secondOfDay % 60 ∧ (t.second = 60 ↔ t.isLeap = true) := by
  rw [second]
  by_cases hleap : t.isLeap = true
  · have hlast := secondOfDay_of_isLeap h hleap
    rw [if_pos hleap]
    refine ⟨by omega, ?_⟩
    constructor
    · intro _
      exact hleap
    · intro _
      omega
  · rw [if_neg hleap]
    refine ⟨by omega, ?_⟩
    constructor
    · intro hsixty
      omega
    · intro hl
      exact absurd hl hleap

theorem nanos_wholeSecond (t : Instant) :
    t.wholeSecond.nanos = if t.isLeap = true then 1000000000 else 0 := rfl

theorem isLeap_wholeSecond (t : Instant) : t.wholeSecond.isLeap = t.isLeap := by
  rw [isLeap, nanos_wholeSecond]
  cases t.isLeap with
  | true => rfl
  | false => rfl

theorem stray_wholeSecond (t : Instant) : t.wholeSecond.Stray ↔ t.Stray := by
  rw [Stray, Stray, isLeap_wholeSecond]
  rfl

/-- The fields of an instant that is no stray lead back to its second. -/
theorem ofFields?_of_not_stray {t : Instant} (h : ¬ t.Stray) :
    ofFields? t.date t.hour t.minute t.second = some t.wholeSecond := by
  have hday := t.secondOfDay_eq
  have hlt := t.secondOfDay_lt
  obtain ⟨hmin, hsixty⟩ := second_spec h
  have hvalid : t.date.Valid ∧ t.hour ≤ 23 ∧ t.minute ≤ 59 ∧ t.second ≤ 60 := by
    refine ⟨Date.valid_ofDays _, ?_, ?_, t.second_le⟩
    · rw [hour]
      omega
    · rw [minute]
      omega
  have hseconds : t.date.toDays * 86400 + t.hour * 3600 + t.minute * 60 + (min t.second 59 : Nat) =
      t.wholeSecond.seconds := by
    rw [show t.date.toDays = t.days from Date.toDays_ofDays t.days, hmin, days, hour, minute]
    show _ = t.seconds
    omega
  have hnanos : (if t.second = 60 then 1000000000 else 0) = t.wholeSecond.nanos := by
    rw [nanos_wholeSecond]
    simp only [hsixty]
  rw [ofFields?, if_pos hvalid, hseconds, hnanos,
    ofParts?_seconds_nanos fun hstray => h (t.stray_wholeSecond.mp hstray)]

/-! ## What is kept -/

/-- A second begins within its nanoseconds. -/
theorem zero_lt_nanos : 0 < 2000000000 := by decide

/-- The last of all seconds ends its minute, so that one comes after every stray. -/
theorem Stray.succ_le_last {t : Instant} (h : t.Stray) : t.seconds + 1 ≤ 8210266876799 := by
  have hlast := t.le_last
  have hends := h.2
  omega

/-- What canonical text keeps of an instant: the second that it lies in, but of a stray the start of
the second that it is shown like. -/
def kept (t : Instant) : Instant :=
  if h : t.Stray then
    { seconds := t.seconds + 1
      nanos := 0
      nanos_lt := zero_lt_nanos
      first_le := Int.le_add_one t.first_le
      le_last := h.succ_le_last }
  else t.wholeSecond

theorem kept_of_stray {t : Instant} (h : t.Stray) :
    t.kept.seconds = t.seconds + 1 ∧ t.kept.nanos = 0 := by
  rw [kept, dif_pos h]
  exact ⟨rfl, rfl⟩

theorem kept_of_not_stray {t : Instant} (h : ¬ t.Stray) : t.kept = t.wholeSecond := dif_neg h

/-- The seconds and nanoseconds of what is kept. -/
theorem kept_cases (t : Instant) :
    t.Stray ∧ t.kept.seconds = t.seconds + 1 ∧ t.kept.nanos = 0 ∨
      ¬ t.Stray ∧ t.kept.seconds = t.seconds ∧
        t.kept.nanos = if t.isLeap = true then 1000000000 else 0 := by
  by_cases h : t.Stray
  · exact .inl ⟨h, kept_of_stray h⟩
  · rw [kept_of_not_stray h]
    exact .inr ⟨h, rfl, rfl⟩

theorem not_stray_kept (t : Instant) : ¬ t.kept.Stray := by
  by_cases h : t.Stray
  · rintro ⟨hleap, -⟩
    rw [isLeap, (kept_of_stray h).2] at hleap
    cases hleap
  · rw [kept_of_not_stray h, stray_wholeSecond]
    exact h

/-- An instant without a passed part of its second is a whole second. -/
theorem wholeSecond_eq_self {t : Instant} (h : t.nanos % 1000000000 = 0) : t.wholeSecond = t := by
  refine Instant.ext rfl ?_
  have hlt := t.nanos_lt
  rw [nanos_wholeSecond]
  simp only [isLeap, decide_eq_true_iff]
  split
  · omega
  · omega

/-- What is kept is a whole second. -/
theorem wholeSecond_kept (t : Instant) : t.kept.wholeSecond = t.kept := by
  refine wholeSecond_eq_self ?_
  rcases t.kept_cases with ⟨-, -, hnanos⟩ | ⟨-, -, hnanos⟩
  · rw [hnanos]
  · rw [hnanos]
    split
    · rfl
    · rfl

/-- What is kept shows the same fields as the instant. -/
theorem fields_kept (t : Instant) :
    t.kept.date = t.date ∧ t.kept.hour = t.hour ∧ t.kept.minute = t.minute ∧
      t.kept.second = t.second := by
  by_cases h : t.Stray
  · -- the second after a stray lies in the same minute
    obtain ⟨hseconds, hnanos⟩ := kept_of_stray h
    obtain ⟨hleap, hends⟩ := h
    have hdays : t.kept.days = t.days := by
      rw [days, days, hseconds]
      omega
    have hsecondOfDay : t.kept.secondOfDay = t.secondOfDay + 1 := by
      have heq := t.secondOfDay_eq
      have hkept := t.kept.secondOfDay_eq
      rw [hseconds] at hkept
      omega
    have hends' : t.secondOfDay % 60 ≠ 59 := by
      have heq := t.secondOfDay_eq
      omega
    have hleap' : t.kept.isLeap = false := by
      rw [isLeap, hnanos]
      rfl
    rw [date, date, hdays, hour, hour, minute, minute, second, second, hsecondOfDay, hleap, hleap']
    refine ⟨rfl, by omega, by omega, ?_⟩
    show (t.secondOfDay + 1) % 60 + 0 = t.secondOfDay % 60 + 1
    omega
  · rw [kept_of_not_stray h, second, second, isLeap_wholeSecond]
    exact ⟨rfl, rfl, rfl, rfl⟩

/-- Half a second into a leap second that runs on from 2024-06-01 08:30:05. -/
def sampledStray : Instant where
  seconds := 1717230605
  nanos := 1500000000
  nanos_lt := by decide
  first_le := by decide
  le_last := by decide

example : sampledStray.Stray ∧ sampledStray.second = 6 ∧ sampledStray.kept.second = 6 := by
  decide

/-- The fields of an instant lead back to what is kept of it. -/
theorem ofFields?_fields (t : Instant) :
    ofFields? t.date t.hour t.minute t.second = some t.kept := by
  obtain ⟨hdate, hhour, hminute, hsecond⟩ := t.fields_kept
  rw [← hdate, ← hhour, ← hminute, ← hsecond, ofFields?_of_not_stray t.not_stray_kept,
    wholeSecond_kept]

/-! ## The text -/

/-- The numbers of canonical text. -/
def numbers (t : Instant) : List Nat :=
  [t.date.year.toNat, t.date.month, t.date.day, t.hour, t.minute, t.second]

theorem numbers_kept (t : Instant) : t.kept.numbers = t.numbers := by
  obtain ⟨hdate, hhour, hminute, hsecond⟩ := t.fields_kept
  rw [numbers, numbers, hdate, hhour, hminute, hsecond]

/-- Canonical text depends on what it keeps alone. -/
theorem canonical_kept (t : Instant) : t.kept.canonical = t.canonical := by
  obtain ⟨hdate, hhour, hminute, hsecond⟩ := t.fields_kept
  rw [canonical, canonical, dateText, dateText, timeText, timeText, hdate, hhour, hminute, hsecond]

theorem toList_canonical {t : Instant} (hfirst : 0 ≤ t.date.year) (hlast : t.date.year ≤ 9999) :
    t.canonical.toList = TemporalShape.dateTime.layout.write t.numbers := by
  rw [canonical, String.toList_ofList, dateText, timeText, yearText, if_pos ⟨hfirst, hlast⟩]
  simp [TemporalShape.layout, Layout.write, numbers]

theorem fits_numbers {t : Instant} (hlast : t.date.year ≤ 9999) :
    TemporalShape.dateTime.layout.Fits t.numbers := by
  have hlt := t.secondOfDay_lt
  have hvalid := Date.valid_ofDays t.days
  have hle := t.second_le
  have hyear : t.date.year.toNat < Nat.pow 10 4 := by
    show _ < 10000
    omega
  have hmonth : t.date.month < Nat.pow 10 2 := by
    show t.date.month < 100
    exact Nat.lt_of_le_of_lt hvalid.2.1 (by decide)
  have hday : t.date.day < Nat.pow 10 2 := by
    show t.date.day < 100
    have hle := Nat.le_trans hvalid.2.2.2 (Date.monthLength_le _ _)
    exact Nat.lt_of_le_of_lt hle (by decide)
  have hhour : t.hour < Nat.pow 10 2 := by
    show t.hour < 100
    rw [hour]
    omega
  have hminute : t.minute < Nat.pow 10 2 := by
    show t.minute < 100
    rw [minute]
    omega
  have hsecond : t.second < Nat.pow 10 2 := by
    show t.second < 100
    omega
  exact ⟨hyear, hmonth, hday, hhour, hminute, hsecond, rfl⟩

/-- **Canonical text is read back** as what it keeps, in the years that it writes with four
digits. -/
theorem parse_canonical {t : Instant} (hfirst : 0 ≤ t.date.year) (hlast : t.date.year ≤ 9999) :
    parse t.canonical = .ok t.kept := by
  have hread : TemporalShape.dateTime.layout.read t.canonical.toList = some t.numbers := by
    rw [toList_canonical hfirst hlast]
    exact Layout.read_write _ _ (fits_numbers hlast)
  -- the shape of canonical text is the first that is tried
  have hshape : TemporalShape.of? t.canonical = some .dateTime := by
    have hmatches : TemporalShape.dateTime.Matches t.canonical := by
      rw [TemporalShape.Matches, hread]
      rfl
    unfold TemporalShape.of?
    exact List.find?_cons_of_pos (by exact decide_eq_true hmatches)
  have hdate : (⟨(t.date.year.toNat : Int), t.date.month, t.date.day⟩ : Date) = t.date := by
    rw [Int.toNat_of_nonneg hfirst]
  have hnumbers : ofNumbers? t.numbers = some t.kept := by
    rw [numbers, ofNumbers?, hdate]
    exact t.ofFields?_fields
  unfold parse
  rw [hshape]
  dsimp only
  rw [hread, Option.bind_some, hnumbers]

/-- The instants of the years 0 to 9999, by day. -/
theorem days_bounds {t : Instant} (hfirst : 0 ≤ t.date.year) (hlast : t.date.year ≤ 9999) :
    -719528 ≤ t.days ∧ t.days ≤ 2932896 :=
  Date.bounds_of_year hfirst hlast

/-- The instants of the years 0 to 9999, by second. -/
theorem seconds_bounds {t : Instant} (hfirst : 0 ≤ t.date.year) (hlast : t.date.year ≤ 9999) :
    -62167219200 ≤ t.seconds ∧ t.seconds ≤ 253402300799 := by
  obtain ⟨hlow, hhigh⟩ := days_bounds hfirst hlast
  rw [days] at hlow hhigh
  omega

end Instant

end Tabular
