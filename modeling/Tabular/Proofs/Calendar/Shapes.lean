import Tabular.Proofs.Calendar.RoundTrip

/-!
# Shapes of temporal text

Which texts are read as instants, told by their shape and their numbers, and which instants they are
read as.

- `Layout.width`: the length of the texts of a layout, by which a text has at most one shape
  (`TemporalShape.eq_of_matches`).
- `Undated`: a text with a shape that denotes no instant, and is not read (`Instant.parse_ne_ok`).
- `Instant.Settled`: an instant that canonical text keeps as it is. All that are read are such
  (`Instant.settled_of_parse`).
-/

namespace Tabular

namespace Layout

/-- The length of the texts of a layout. -/
def width : Layout → Nat
  | [] => 0
  | .mark _ :: rest => width rest + 1
  | .digits w :: rest => w + width rest

theorem length_write (l : Layout) (ns : List Nat) : (l.write ns).length = l.width := by
  induction l generalizing ns with
  | nil => rfl
  | cons slot l ih =>
    cases slot with
    | mark m => rw [write, width, List.length_cons, ih]
    | digits w =>
      cases ns with
      | nil => rw [write, width, List.length_append, Text.length_fixed, ih]
      | cons n ns => rw [write, width, List.length_append, Text.length_fixed, ih]

theorem length_of_read {l : Layout} {cs : List Char} {ns : List Nat} (h : l.read cs = some ns) :
    cs.length = l.width := by
  rw [← write_of_read l cs ns h, length_write]

end Layout

namespace TemporalShape

theorem width_injective {a b : TemporalShape} (h : a.layout.width = b.layout.width) : a = b := by
  revert h
  cases a <;> cases b <;> decide

theorem matches_of_read {shape : TemporalShape} {s : String} {ns : List Nat}
    (h : shape.layout.read s.toList = some ns) : shape.Matches s :=
  Option.isSome_iff_exists.mpr ⟨ns, h⟩

/-- No text has two shapes. -/
theorem eq_of_matches {a b : TemporalShape} {s : String} (ha : a.Matches s) (hb : b.Matches s) :
    a = b := by
  obtain ⟨ns, hread⟩ := Option.isSome_iff_exists.mp ha
  obtain ⟨ns', hread'⟩ := Option.isSome_iff_exists.mp hb
  exact width_injective ((Layout.length_of_read hread).symm.trans (Layout.length_of_read hread'))

end TemporalShape

/-- The text looks like a time of day, or else like a date that no calendar has or a time that no
clock shows. -/
inductive Undated (s : String) : Prop where
  | timeOfDay (h : TemporalShape.timeOfDay.Matches s) : Undated s
  | date {year month day : Nat}
      (hread : TemporalShape.date.layout.read s.toList = some [year, month, day])
      (h : ¬ Date.Valid ⟨year, month, day⟩) : Undated s
  | dateTime {year month day hour minute second : Nat}
      (hread : TemporalShape.dateTime.layout.read s.toList =
        some [year, month, day, hour, minute, second])
      (h : ¬ (Date.Valid ⟨year, month, day⟩ ∧ hour ≤ 23 ∧ minute ≤ 59 ∧ second ≤ 60)) : Undated s

namespace Instant

/-- Only dates and times that there are make an instant. -/
theorem valid_of_ofFields? {date : Date} {hour minute second : Nat} {t : Instant}
    (h : ofFields? date hour minute second = some t) :
    date.Valid ∧ hour ≤ 23 ∧ minute ≤ 59 ∧ second ≤ 60 := by
  unfold ofFields? at h
  exact (Option.ite_none_right_eq_some.mp h).1

theorem parse_ne_ok {s : String} (h : Undated s) (t : Instant) : parse s ≠ .ok t := by
  intro hparse
  obtain ⟨shape, ns, -, hne, hread, hnumbers⟩ := exists_numbers_of_parse hparse
  -- the shape that it is read by is the one that it looks like, and the numbers are the same
  have hmatches := TemporalShape.matches_of_read hread
  cases h with
  | timeOfDay htime => exact hne (TemporalShape.eq_of_matches hmatches htime)
  | date hdate hinvalid =>
    obtain rfl := TemporalShape.eq_of_matches hmatches (TemporalShape.matches_of_read hdate)
    cases hdate.symm.trans hread
    exact hinvalid (valid_of_ofFields? hnumbers).1
  | dateTime hdateTime hinvalid =>
    obtain rfl := TemporalShape.eq_of_matches hmatches (TemporalShape.matches_of_read hdateTime)
    cases hdateTime.symm.trans hread
    exact hinvalid (valid_of_ofFields? hnumbers)

/-- The instant is a whole second of a year that is written with four digits. Of leap seconds only
those that end their minute are meant. -/
structure Settled (t : Instant) : Prop where
  whole : t.nanos = 0 ∨ t.nanos = 1000000000 ∧ t.seconds % 60 = 59
  first_le : 0 ≤ t.date.year
  le_last : t.date.year ≤ 9999

theorem Settled.kept_eq {t : Instant} (h : t.Settled) : t.kept = t := by
  have hstray : ¬ t.Stray := by
    rintro ⟨hleap, hends⟩
    rcases h.whole with hnanos | ⟨-, hminute⟩
    · rw [isLeap, hnanos] at hleap
      cases hleap
    · exact hends hminute
  have hnanos : t.nanos % 1000000000 = 0 := by
    have hwhole := h.whole
    omega
  rw [kept_of_not_stray hstray, wholeSecond_eq_self hnanos]

/-- Canonical text keeps such an instant as it is. -/
theorem Settled.parse_canonical {t : Instant} (h : t.Settled) : parse t.canonical = .ok t := by
  rw [Instant.parse_canonical h.first_le h.le_last, h.kept_eq]

theorem settled_of_ofFields? {year month day hour minute second : Nat} {t : Instant}
    (hyear : year < 10000) (h : ofFields? ⟨year, month, day⟩ hour minute second = some t) :
    t.Settled := by
  obtain ⟨hdate, -, -, -⟩ := fields_of_ofFields? h
  have ht : t.date.year = year := by rw [hdate]
  unfold ofFields? at h
  obtain ⟨hseconds, hnanos⟩ := parts_of_ofParts? (Option.ite_none_right_eq_some.mp h).2
  constructor
  · rw [hnanos]
    split
    · -- second 60 is second 59 running on
      exact .inr ⟨rfl, by omega⟩
    · exact .inl rfl
  · rw [ht]
    exact Int.natCast_nonneg year
  · omega

/-- Whatever is read of a text comes back from canonical text. -/
theorem settled_of_parse {s : String} {t : Instant} (h : parse s = .ok t) : t.Settled := by
  obtain ⟨shape, ns, -, hne, hread, hnumbers⟩ := exists_numbers_of_parse h
  cases shape with
  | timeOfDay => exact absurd rfl hne
  | date =>
    obtain ⟨year, month, day, rfl, hyear⟩ := exists_of_read_date hread
    exact settled_of_ofFields? hyear hnumbers
  | dateTime =>
    obtain ⟨year, month, day, hour, minute, second, rfl, hyear⟩ := exists_of_read_dateTime hread
    exact settled_of_ofFields? hyear hnumbers

end Instant

end Tabular
