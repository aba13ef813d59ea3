import Mathlib.Data.List.Induction
import Tabular.Proofs.Calendar.CanonicalText
import Tabular.Value.Convert

/-!
# Texts and instants

Reading and writing canonical text are inverse to each other as far as four digits of a year go.

- `Instant.fields_of_ofFields?`: an instant has the calendar and clock fields that it was made of.
- `Layout.fits_of_read`: the numbers that a layout reads fit its fields.
- `TemporalShape.of?_eq_none`: a text that begins with no digit has no shape, as canonical text of
  the years that are written with a sign.
- `Instant.canonical_roundTrip`: **what is read of canonical text and what is written of a text that
  was read**, for all instants and all texts.
-/

namespace Tabular

/-! ## Numbers of a text -/

/-- Digits denote a number of at most as many digits. -/
theorem Text.value_lt {ds : List Char} (h : ∀ c ∈ ds, c.isDigit = true) :
    Text.value ds < Nat.pow 10 ds.length := by
  induction ds using List.reverseRecOn with
  | nil => exact Nat.one_pos
  | append_singleton ds c ih =>
    have hds := ih fun x hx => h x (List.mem_append_left _ hx)
    have hc : Text.digitValue c < 10 := Text.digitValue_lt (h c (by simp))
    have hpow : Nat.pow 10 (ds ++ [c]).length = Nat.pow 10 ds.length * 10 := by
      rw [List.length_append, List.length_singleton]
      rfl
    rw [Text.value_append_singleton, hpow]
    omega

/-- The numbers that a layout reads fit its fields. -/
theorem Layout.fits_of_read {l : Layout} {cs : List Char} {ns : List Nat}
    (h : l.read cs = some ns) : l.Fits ns := by
  induction l generalizing cs ns with
  | nil =>
    cases cs with
    | nil => exact (Option.some.inj h).symm
    | cons c cs => cases h
  | cons slot l ih =>
    cases slot with
    | mark m =>
      cases cs with
      | nil => cases h
      | cons c cs =>
        rw [read, Option.ite_none_right_eq_some] at h
        exact ih h.2
    | digits w =>
      simp only [read, Option.ite_none_right_eq_some, Option.map_eq_some_iff] at h
      obtain ⟨⟨hlength, hdigits⟩, ms, hms, rfl⟩ := h
      have hvalue := Text.value_lt (List.all_eq_true.mp hdigits)
      rw [hlength] at hvalue
      exact ⟨hvalue, ih hms⟩

namespace TemporalShape

/-- Every shape begins with digits. -/
theorem not_matches_of_head {s : String} {c : Char} {cs : List Char} (hs : s.toList = c :: cs)
    (hc : c.isDigit = false) (shape : TemporalShape) : ¬ shape.Matches s := by
  unfold Matches
  rw [hs]
  cases shape with
  | date => simp [layout, Layout.read, hc]
  | timeOfDay => simp [layout, Layout.read, hc]
  | dateTime => simp [layout, Layout.read, hc]

/-- A text that begins with no digit has no shape. -/
theorem of?_eq_none {s : String} {c : Char} {cs : List Char} (hs : s.toList = c :: cs)
    (hc : c.isDigit = false) : of? s = none := by
  refine List.find?_eq_none.mpr fun shape _ => ?_
  simpa using not_matches_of_head hs hc shape

end TemporalShape

namespace Instant

/-! ## Fields of an instant -/

theorem parts_of_ofParts? {seconds : Int} {nanos : Nat} {t : Instant}
    (h : ofParts? seconds nanos = some t) : t.seconds = seconds ∧ t.nanos = nanos := by
  unfold ofParts? at h
  split at h
  · cases h
    exact ⟨rfl, rfl⟩
  · cases h

/-- An instant has the calendar and clock fields that it was made of. -/
theorem fields_of_ofFields? {date : Date} {hour minute second : Nat} {t : Instant}
    (h : ofFields? date hour minute second = some t) :
    t.date = date ∧ t.hour = hour ∧ t.minute = minute ∧ t.second = second := by
  unfold ofFields? at h
  rw [Option.ite_none_right_eq_some] at h
  obtain ⟨⟨hvalid, hhour, hminute, hsecond⟩, hparts⟩ := h
  obtain ⟨hseconds, hnanos⟩ := parts_of_ofParts? hparts
  have hdays : t.days = date.toDays := by
    rw [days, hseconds]
    omega
  have hday : t.secondOfDay = hour * 3600 + minute * 60 + min second 59 := by
    rw [secondOfDay, hseconds]
    omega
  have hleap : t.isLeap = true ↔ second = 60 := by
    rw [isLeap, decide_eq_true_iff, hnanos]
    split
    next heq => simp [heq]
    next hne => simp [hne]
  refine ⟨?_, ?_, ?_, ?_⟩
  · rw [Instant.date, hdays, Date.ofDays_toDays hvalid]
  · rw [Instant.hour, hday]
    omega
  · rw [Instant.minute, hday]
    omega
  · rw [Instant.second, hday]
    split
    next hl =>
      have hsixty := hleap.mp hl
      omega
    next hl =>
      have hsixty : second ≠ 60 := fun heq => hl (hleap.mpr heq)
      omega

/-- A date and a time of day are written as canonical text of their instant. -/
theorem toList_canonical_of_ofFields? {year month day hour minute second : Nat} {t : Instant}
    (hyear : year < 10000) (h : ofFields? ⟨year, month, day⟩ hour minute second = some t) :
    t.canonical.toList =
      TemporalShape.dateTime.layout.write [year, month, day, hour, minute, second] := by
  obtain ⟨hdate, hhour, hminute, hsecond⟩ := fields_of_ofFields? h
  have hnumbers : t.numbers = [year, month, day, hour, minute, second] := by
    rw [numbers, hdate, hhour, hminute, hsecond]
    rfl
  have hfirst : 0 ≤ t.date.year := by
    rw [hdate]
    exact Int.natCast_nonneg year
  have hlast : t.date.year ≤ 9999 := by
    rw [hdate]
    show (year : Int) ≤ 9999
    omega
  rw [toList_canonical hfirst hlast, hnumbers]

/-! ## Texts that are read -/

/-- The numbers of a date. -/
theorem exists_of_read_date {cs : List Char} {ns : List Nat}
    (h : TemporalShape.date.layout.read cs = some ns) :
    ∃ year month day : Nat, ns = [year, month, day] ∧ year < 10000 := by
  match ns, Layout.fits_of_read h with
  | _ :: _ :: _ :: [], hfits => exact ⟨_, _, _, rfl, hfits.1⟩

/-- The numbers of a date with time. -/
theorem exists_of_read_dateTime {cs : List Char} {ns : List Nat}
    (h : TemporalShape.dateTime.layout.read cs = some ns) :
    ∃ year month day hour minute second : Nat,
      ns = [year, month, day, hour, minute, second] ∧ year < 10000 := by
  match ns, Layout.fits_of_read h with
  | _ :: _ :: _ :: _ :: _ :: _ :: [], hfits => exact ⟨_, _, _, _, _, _, rfl, hfits.1⟩

/-- A date with time that is read is canonical text. -/
theorem canonical_of_dateTime {s : String} {ns : List Nat} {t : Instant}
    (hread : TemporalShape.dateTime.layout.read s.toList = some ns) (h : ofNumbers? ns = some t) :
    t.canonical = s := by
  obtain ⟨year, month, day, hour, minute, second, rfl, hyear⟩ := exists_of_read_dateTime hread
  refine String.toList_injective ?_
  rw [toList_canonical_of_ofFields? hyear h]
  exact Layout.write_of_read _ _ _ hread

/-- A date that is read is the date of canonical text, whose time is midnight. -/
theorem canonical_of_date {s : String} {ns : List Nat} {t : Instant}
    (hread : TemporalShape.date.layout.read s.toList = some ns) (h : ofNumbers? ns = some t) :
    t.canonical = s ++ " 00:00:00" := by
  obtain ⟨year, month, day, rfl, hyear⟩ := exists_of_read_date hread
  have hwrite : TemporalShape.dateTime.layout.write [year, month, day, 0, 0, 0] =
      TemporalShape.date.layout.write [year, month, day] ++ " 00:00:00".toList := by
    simp [TemporalShape.layout, Layout.write, Text.fixed]
    decide
  refine String.toList_injective ?_
  rw [toList_canonical_of_ofFields? hyear h, hwrite, String.toList_append]
  rw [Layout.write_of_read _ _ _ hread]

/-- A text that is read has the shape of a date, with a time or without, and the numbers of an
instant. -/
theorem exists_numbers_of_parse {s : String} {t : Instant} (h : parse s = .ok t) :
    ∃ shape ns, TemporalShape.of? s = some shape ∧ shape ≠ .timeOfDay ∧
      shape.layout.read s.toList = some ns ∧ ofNumbers? ns = some t := by
  unfold parse at h
  cases hshape : TemporalShape.of? s with
  | none =>
    rw [hshape] at h
    cases h
  | some shape =>
    rw [hshape] at h
    cases shape with
    | timeOfDay => cases h
    | date =>
      dsimp only at h
      split at h
      next u hu =>
        cases h
        obtain ⟨ns, hread, hnumbers⟩ := Option.bind_eq_some_iff.mp hu
        exact ⟨_, ns, rfl, nofun, hread, hnumbers⟩
      next => cases h
    | dateTime =>
      dsimp only at h
      split at h
      next u hu =>
        cases h
        obtain ⟨ns, hread, hnumbers⟩ := Option.bind_eq_some_iff.mp hu
        exact ⟨_, ns, rfl, nofun, hread, hnumbers⟩
      next => cases h

/-- The texts that are read have one of two shapes, and are written again as they were, a date with
its midnight. -/
theorem canonical_of_parse {s : String} {t : Instant} (h : parse s = .ok t) :
    TemporalShape.of? s = some .dateTime ∧ t.canonical = s ∨
      TemporalShape.of? s = some .date ∧ t.canonical = s ++ " 00:00:00" := by
  obtain ⟨shape, ns, hshape, hne, hread, hnumbers⟩ := exists_numbers_of_parse h
  cases shape with
  | timeOfDay => exact absurd rfl hne
  | date => exact .inr ⟨hshape, canonical_of_date hread hnumbers⟩
  | dateTime => exact .inl ⟨hshape, canonical_of_dateTime hread hnumbers⟩

/-! ## Instants that are written -/

/-- Canonical text of a year beyond four digits begins with the sign of the year. -/
theorem exists_sign_canonical {t : Instant} (h : ¬ (0 ≤ t.date.year ∧ t.date.year ≤ 9999)) :
    ∃ c cs, t.canonical.toList = c :: cs ∧ c.isDigit = false := by
  rw [canonical, String.toList_ofList, dateText, yearText, if_neg h]
  refine ⟨_, _, rfl, ?_⟩
  split
  · rfl
  · rfl

/-- Canonical text of a year beyond four digits has no shape. -/
theorem of?_canonical_of_year {t : Instant} (h : ¬ (0 ≤ t.date.year ∧ t.date.year ≤ 9999)) :
    TemporalShape.of? t.canonical = none := by
  obtain ⟨c, cs, hlist, hc⟩ := exists_sign_canonical h
  exact TemporalShape.of?_eq_none hlist hc

/-- **Reading and writing are inverse** as far as four digits go. In the years 0 to 9999 canonical
text is read as the second of its instant, a leap second as itself, so that an instant that is a
whole second comes back; only a stray is read as the second after the one that runs on. In any other
year canonical text is no temporal text, and stays text where instants are read out of texts. And a
text that is read is written again as it was, a date with the midnight that it stands for. -/
theorem canonical_roundTrip :
    (∀ t : Instant,
      (0 ≤ t.date.year ∧ t.date.year ≤ 9999 →
        (¬ t.Stray → parse t.canonical = .ok t.wholeSecond ∧
          (t.nanos % 1000000000 = 0 → parse t.canonical = .ok t)) ∧
        (t.Stray → ∃ u, parse t.canonical = .ok u ∧ u.seconds = t.seconds + 1 ∧ u.nanos = 0)) ∧
      (¬ (0 ≤ t.date.year ∧ t.date.year ≤ 9999) →
        parse t.canonical = .error (.unrecognized t.canonical) ∧
          (Value.timestamp t).encoded.decode = .ok (.text t.canonical))) ∧
    ∀ (s : String) (t : Instant), parse s = .ok t →
      TemporalShape.of? s = some .dateTime ∧ t.canonical = s ∨
        TemporalShape.of? s = some .date ∧ t.canonical = s ++ " 00:00:00" := by
  refine ⟨fun t => ⟨?inside, ?outside⟩, fun s t h => canonical_of_parse h⟩
  case inside =>
    rintro ⟨hfirst, hlast⟩
    have hparse := parse_canonical hfirst hlast
    constructor
    · intro hstray
      rw [kept_of_not_stray hstray] at hparse
      refine ⟨hparse, fun hnanos => ?_⟩
      rw [hparse, wholeSecond_eq_self hnanos]
    · intro hstray
      obtain ⟨hseconds, hnanos⟩ := kept_of_stray hstray
      exact ⟨t.kept, hparse, hseconds, hnanos⟩
  case outside =>
    intro hyear
    have hshape := of?_canonical_of_year hyear
    constructor
    · rw [parse, hshape]
    · show (Value.text t.canonical).decode = _
      unfold Value.decode
      dsimp only
      rw [hshape]

/-- A stray does not come back: its text is that of the next second. -/
theorem canonical_stray_not_read_back :
    (0 ≤ sampledStray.date.year ∧ sampledStray.date.year ≤ 9999) ∧
      sampledStray.wholeSecond.seconds = 1717230605 ∧
      sampledStray.wholeSecond.nanos = 1000000000 ∧
      sampledStray.canonical = "2024-06-01 08:30:06" ∧
      parse sampledStray.canonical = .ok sampledStray.kept ∧
      sampledStray.kept.seconds = 1717230606 ∧
      parse sampledStray.canonical ≠ .ok sampledStray.wholeSecond := by
  decide +kernel

/-- Three tenths of a second into a leap second at the end of 1969. -/
def sampledEve : Instant where
  seconds := -1
  nanos := 1300000000
  nanos_lt := by decide
  first_le := by decide
  le_last := by decide

/-- The last second before the year 0. -/
def sampledEarly : Instant where
  seconds := -62167219201
  nanos := 0
  nanos_lt := by decide
  first_le := by decide
  le_last := by decide

/-- Midnight at the start of the leap day of 2000. -/
def sampledLeapDay : Instant where
  seconds := 951782400
  nanos := 0
  nanos_lt := by decide
  first_le := by decide
  le_last := by decide

theorem canonical_roundTrip_sampled :
    (0 ≤ sampledEve.date.year ∧ sampledEve.date.year ≤ 9999) ∧ ¬ sampledEve.Stray ∧
      sampledEve.canonical = "1969-12-31 23:59:60" ∧
      parse sampledEve.canonical = .ok sampledEve.wholeSecond ∧
      (0 ≤ sampledStray.date.year ∧ sampledStray.date.year ≤ 9999) ∧ sampledStray.Stray ∧
      (∃ u, parse sampledStray.canonical = .ok u ∧ u.seconds = 1717230606 ∧ u.nanos = 0) ∧
      ¬ (0 ≤ sampledEarly.date.year ∧ sampledEarly.date.year ≤ 9999) ∧
      sampledEarly.canonical = "-0001-12-31 23:59:59" ∧
      (Value.timestamp sampledEarly).encoded.decode = .ok (.text sampledEarly.canonical) ∧
      parse "2000-02-29" = .ok sampledLeapDay ∧
      TemporalShape.of? "2000-02-29" = some .date ∧
      sampledLeapDay.canonical = "2000-02-29 00:00:00" := by
  have heve : 0 ≤ sampledEve.date.year ∧ sampledEve.date.year ≤ 9999 := by decide +kernel
  have hends : ¬ sampledEve.Stray := by decide
  have hyear : 0 ≤ sampledStray.date.year ∧ sampledStray.date.year ≤ 9999 := by decide +kernel
  have hstray : sampledStray.Stray := by decide
  have hearly : ¬ (0 ≤ sampledEarly.date.year ∧ sampledEarly.date.year ≤ 9999) := by
    decide +kernel
  have hparse : parse "2000-02-29" = .ok sampledLeapDay := by decide +kernel
  have hshape : TemporalShape.of? "2000-02-29" = some .date := by decide +kernel
  obtain ⟨hwritten, hread⟩ := canonical_roundTrip
  refine ⟨heve, hends, by decide +kernel, (((hwritten sampledEve).1 heve).1 hends).1,
    hyear, hstray, ((hwritten sampledStray).1 hyear).2 hstray, hearly, by decide +kernel,
    ((hwritten sampledEarly).2 hearly).2, hparse, hshape, ?_⟩
  rcases hread _ _ hparse with ⟨hdateTime, -⟩ | ⟨-, hcanonical⟩
  · rw [hshape] at hdateTime
    cases hdateTime
  · exact hcanonical

end Instant

end Tabular
