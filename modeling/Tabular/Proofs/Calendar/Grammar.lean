import Mathlib.Data.List.Forall2
import Tabular.Proofs.Calendar.Shapes
import Tabular.Proofs.Calendar.Succession
import Tabular.Proofs.Record.Decoding

/-!
# What temporal text says

Which texts are read as instants, and as which ones, told by how dates and times are written and by
the calendar alone.

- `TemporalShape.Shaped`: the shapes place by place. They are what `TemporalShape.of?` finds
  (`TemporalShape.of?_eq_some_iff`).
- `Moment`, `Moment.Spelled`, `Moment.Real`, `Moment.Is`: numbers of a date and a time of day, how
  they are written, which of them there are, and the instant that they are.
- `Instant.parse_of_spelled`, `Instant.spelled_of_parse`: the texts of moments that there are, and no
  others, are read, as the instants of the moments.
- `Instant.parse_exact`: **reading accepts exactly the written moments**, and what is said of any
  other text depends on its shape.
-/

namespace Tabular

/-! ## Shapes, place by place -/

/-- What the places of a layout take, one character each. -/
def Layout.places : Layout → List (Char → Bool)
  | [] => []
  | .mark m :: rest => (· == m) :: places rest
  | .digits w :: rest => List.replicate w Char.isDigit ++ places rest

/-- A field takes a digit before the rest of it. -/
theorem Layout.isSome_read_digits_succ (w : Nat) (l : Layout) (c : Char) (cs : List Char) :
    (read (.digits (w + 1) :: l) (c :: cs)).isSome ↔
      c.isDigit = true ∧ (read (.digits w :: l) cs).isSome := by
  simp only [read, List.take_succ_cons, List.drop_succ_cons, List.length_cons, List.all_cons,
    Nat.add_right_cancel_iff, Bool.and_eq_true]
  by_cases hc : c.isDigit = true
  · by_cases hcs : (cs.take w).length = w ∧ (cs.take w).all Char.isDigit = true
    · simp only [hc, hcs, and_self, if_true, Option.isSome_map, true_and]
    · simp only [hc, hcs, true_and, if_false, Option.isSome_none]
  · simp only [hc, false_and, and_false, if_false, Option.isSome_none, Bool.false_eq_true]

/-- A layout reads the texts whose characters its places take. -/
theorem Layout.isSome_read_iff (l : Layout) (cs : List Char) :
    (l.read cs).isSome ↔ List.Forall₂ (fun place c => place c = true) l.places cs := by
  induction l generalizing cs with
  | nil =>
    cases cs with
    | nil => simp [read, places]
    | cons c cs => simp [read, places]
  | cons slot l ih =>
    cases slot with
    | mark m =>
      cases cs with
      | nil => simp [read, places]
      | cons c cs =>
        rw [read, places, List.forall₂_cons, ← ih, beq_iff_eq]
        by_cases h : c = m
        · simp [h]
        · simp [h]
    | digits w =>
      rw [places]
      -- a field is taken digit by digit
      induction w generalizing cs with
      | zero => simp [read, ih]
      | succ w ihw =>
        cases cs with
        | nil => simp [read, List.replicate_succ]
        | cons c cs =>
          rw [isSome_read_digits_succ, List.replicate_succ, List.cons_append, List.forall₂_cons,
            ← ihw]

namespace TemporalShape

/-- A shape as it is described: letters stand for digits, all other characters for themselves. -/
def pattern : TemporalShape → String
  | date => "YYYY-MM-DD"
  | timeOfDay => "HH:MM:SS"
  | dateTime => "YYYY-MM-DD HH:MM:SS"

/-- What a character of a pattern takes. -/
def takes (p : Char) : Char → Bool := if p.isAlpha then Char.isDigit else (· == p)

/-- The text is the pattern of the shape with ASCII digits in it, from its first character to its
last. -/
def Shaped (shape : TemporalShape) (s : String) : Prop :=
  List.Forall₂ (fun p c => takes p c = true) shape.pattern.toList s.toList

theorem places_layout (shape : TemporalShape) :
    shape.layout.places = shape.pattern.toList.map takes := by
  cases shape with
  | date => rfl
  | timeOfDay => rfl
  | dateTime => rfl

theorem matches_iff_shaped (shape : TemporalShape) (s : String) :
    shape.Matches s ↔ shape.Shaped s := by
  rw [Matches, Layout.isSome_read_iff, places_layout, Shaped, List.forall₂_map_left_iff]

theorem matches_of_of? {shape : TemporalShape} {s : String} (h : of? s = some shape) :
    shape.Matches s := by
  unfold of? at h
  have hfound := List.find?_some h
  exact of_decide_eq_true hfound

theorem of?_eq_some_iff_matches {shape : TemporalShape} {s : String} :
    of? s = some shape ↔ shape.Matches s := by
  constructor
  · exact matches_of_of?
  · intro h
    cases hof : of? s with
    | none =>
      have hnone := List.find?_eq_none.mp hof shape (by cases shape <;> simp)
      exact absurd h (by simpa using hnone)
    | some other => rw [eq_of_matches (matches_of_of? hof) h]

/-- The shape that a text is found to have is the one that it has. -/
theorem of?_eq_some_iff {shape : TemporalShape} {s : String} :
    of? s = some shape ↔ shape.Shaped s :=
  of?_eq_some_iff_matches.trans (shape.matches_iff_shaped s)

/-- What is said before and after a text that is refused. -/
def refusal : Option TemporalShape → String × String
  | none => ("unrecognized date format: '", "'")
  | some timeOfDay => ("time of day '", "' has no date component")
  | some date => ("invalid date '", "': input is out of range")
  | some dateTime => ("invalid datetime '", "': input is out of range")

end TemporalShape

/-! ## Dates and times as they are written -/

/-- The numbers of a date and of a time of day, whether or not there are such. -/
structure Moment where
  year : Nat
  month : Nat
  day : Nat
  hour : Nat
  minute : Nat
  second : Nat

namespace Moment

/-- The date of a moment. -/
def date (m : Moment) : Date := ⟨m.year, m.month, m.day⟩

/-- The calendar has the date and a clock shows the time; second 60 may follow any minute. -/
structure Real (m : Moment) : Prop where
  valid : m.date.Valid
  hour_le : m.hour ≤ 23
  minute_le : m.minute ≤ 59
  second_le : m.second ≤ 60

/-- How a moment is written: a year in four digits and everything else in two, and midnight by the
date alone too. -/
inductive Spelled : String → Moment → Prop where
  | date {year month day : Nat} (hyear : year < 10000) (hmonth : month < 100) (hday : day < 100) :
    Spelled
      (String.ofList (Text.fixed 4 year ++ '-' :: Text.fixed 2 month ++ '-' :: Text.fixed 2 day))
      ⟨year, month, day, 0, 0, 0⟩
  | dateTime {year month day hour minute second : Nat} (hyear : year < 10000)
    (hmonth : month < 100) (hday : day < 100) (hhour : hour < 100) (hminute : minute < 100)
    (hsecond : second < 100) :
    Spelled
      (String.ofList (Text.fixed 4 year ++ '-' :: Text.fixed 2 month ++ '-' :: Text.fixed 2 day ++
        ' ' :: Text.fixed 2 hour ++ ':' :: Text.fixed 2 minute ++ ':' :: Text.fixed 2 second))
      ⟨year, month, day, hour, minute, second⟩

/-- The instant is that of the moment: so many days after 1970-01-01, counted day by day, and so far
into the day. Second 60 is `:59` and a thousand million nanoseconds. -/
structure Is (m : Moment) (t : Instant) : Prop where
  seconds : ∃ days, m.date.IsDay days ∧
    t.seconds = days * 86400 + m.hour * 3600 + m.minute * 60 + (min m.second 59 : Nat)
  nanos : t.nanos = if m.second = 60 then 1000000000 else 0

/-- The numbers of a written moment. -/
theorem Spelled.read {s : String} {m : Moment} (h : Spelled s m) :
    TemporalShape.date.layout.read s.toList = some [m.year, m.month, m.day] ∧
        m.hour = 0 ∧ m.minute = 0 ∧ m.second = 0 ∨
      TemporalShape.dateTime.layout.read s.toList =
        some [m.year, m.month, m.day, m.hour, m.minute, m.second] := by
  cases h with
  | date hyear hmonth hday =>
    rw [String.toList_ofList]
    refine .inl ⟨?_, rfl, rfl, rfl⟩
    have hfits : TemporalShape.date.layout.Fits [_, _, _] := ⟨hyear, hmonth, hday, rfl⟩
    rw [← Layout.read_write _ _ hfits]
    simp [TemporalShape.layout, Layout.write]
  | dateTime hyear hmonth hday hhour hminute hsecond =>
    rw [String.toList_ofList]
    refine .inr ?_
    have hfits : TemporalShape.dateTime.layout.Fits [_, _, _, _, _, _] :=
      ⟨hyear, hmonth, hday, hhour, hminute, hsecond, rfl⟩
    rw [← Layout.read_write _ _ hfits]
    simp [TemporalShape.layout, Layout.write]

/-- A moment that there is, in a year of four digits, is an instant. -/
theorem Real.exists_instant {m : Moment} (h : m.Real) (hyear : m.year < 10000) :
    ∃ t, Instant.ofFields? m.date m.hour m.minute m.second = some t ∧ m.Is t := by
  obtain ⟨hvalid, hhour, hminute, hsecond⟩ := h
  have hdate := Date.ofDays_toDays hvalid
  have hbounds : -719528 ≤ m.date.toDays ∧ m.date.toDays ≤ 2932896 := by
    refine Date.bounds_of_year ?_ ?_
    · rw [hdate]
      exact Int.natCast_nonneg m.year
    · rw [hdate]
      show (m.year : Int) ≤ 9999
      omega
  -- instants reach beyond these years
  obtain ⟨t, hseconds, hnanos⟩ : ∃ t : Instant,
      t.seconds =
        m.date.toDays * 86400 + m.hour * 3600 + m.minute * 60 + (min m.second 59 : Nat) ∧
      t.nanos = if m.second = 60 then 1000000000 else 0 := by
    refine ⟨⟨m.date.toDays * 86400 + m.hour * 3600 + m.minute * 60 + (min m.second 59 : Nat),
      if m.second = 60 then 1000000000 else 0, ?_, ?_, ?_⟩, rfl, rfl⟩
    · split
      · decide
      · decide
    · omega
    · omega
  -- second 60 is a leap second that ends its minute
  have hstray : ¬ t.Stray := by
    rintro ⟨hleap, hends⟩
    rw [Instant.isLeap, decide_eq_true_iff, hnanos] at hleap
    split at hleap
    · omega
    · omega
  refine ⟨t, ?_, ⟨m.date.toDays, Date.isDay_iff.mpr ⟨hvalid, rfl⟩, hseconds⟩, hnanos⟩
  rw [Instant.ofFields?, if_pos ⟨hvalid, hhour, hminute, hsecond⟩, ← hseconds, ← hnanos,
    Instant.ofParts?_seconds_nanos hstray]

theorem Spelled.year_lt {s : String} {m : Moment} (h : Spelled s m) : m.year < 10000 := by
  cases h with
  | date hyear => exact hyear
  | dateTime hyear => exact hyear

end Moment

namespace Instant

open Moment (Spelled)

/-- A text is read by its numbers. -/
theorem parse_of_read {shape : TemporalShape} (hne : shape ≠ .timeOfDay) {s : String}
    {ns : List Nat} {t : Instant} (hread : shape.layout.read s.toList = some ns)
    (h : ofNumbers? ns = some t) : parse s = .ok t := by
  have hshape := TemporalShape.of?_eq_some_iff_matches.mpr (TemporalShape.matches_of_read hread)
  unfold parse
  rw [hshape]
  cases shape with
  | timeOfDay => exact absurd rfl hne
  | date =>
    dsimp only
    rw [hread, Option.bind_some, h]
  | dateTime =>
    dsimp only
    rw [hread, Option.bind_some, h]

/-- The text of a moment that there is is read as its instant. -/
theorem parse_of_spelled {s : String} {m : Moment} (hs : Spelled s m) (h : m.Real) :
    ∃ t, parse s = .ok t ∧ m.Is t := by
  obtain ⟨t, hfields, ht⟩ := h.exists_instant hs.year_lt
  refine ⟨t, ?_, ht⟩
  rcases hs.read with ⟨hread, hhour, hminute, hsecond⟩ | hread
  · refine parse_of_read (by decide) hread ?_
    rw [hhour, hminute, hsecond] at hfields
    exact hfields
  · exact parse_of_read (by decide) hread hfields

/-- Whatever is read is the text of a moment that there is. -/
theorem spelled_of_parse {s : String} {t : Instant} (h : parse s = .ok t) :
    ∃ m, Spelled s m ∧ m.Real ∧ m.Is t := by
  obtain ⟨shape, ns, -, hne, hread, hnumbers⟩ := exists_numbers_of_parse h
  have hwrite := Layout.write_of_read _ _ _ hread
  obtain ⟨m, hspelled, hfields⟩ : ∃ m, Spelled s m ∧
      ofFields? m.date m.hour m.minute m.second = some t := by
    cases shape with
    | timeOfDay => exact absurd rfl hne
    | date =>
      obtain ⟨year, month, day, rfl, -⟩ := exists_of_read_date hread
      obtain ⟨hyear, hmonth, hday, -⟩ := Layout.fits_of_read hread
      refine ⟨⟨year, month, day, 0, 0, 0⟩, ?_, hnumbers⟩
      rw [← s.ofList_toList, ← hwrite]
      simpa [TemporalShape.layout, Layout.write] using Spelled.date hyear hmonth hday
    | dateTime =>
      obtain ⟨year, month, day, hour, minute, second, rfl, -⟩ := exists_of_read_dateTime hread
      obtain ⟨hyear, hmonth, hday, hhour, hminute, hsecond, -⟩ := Layout.fits_of_read hread
      refine ⟨⟨year, month, day, hour, minute, second⟩, ?_, hnumbers⟩
      rw [← s.ofList_toList, ← hwrite]
      simpa [TemporalShape.layout, Layout.write] using
        Spelled.dateTime hyear hmonth hday hhour hminute hsecond
  obtain ⟨hvalid, hhour, hminute, hsecond⟩ := valid_of_ofFields? hfields
  have hreal : m.Real := ⟨hvalid, hhour, hminute, hsecond⟩
  obtain ⟨u, hu, hm⟩ := hreal.exists_instant hspelled.year_lt
  cases hfields.symm.trans hu
  exact ⟨m, hspelled, hreal, hm⟩

/-- What is said of a text that is not read depends on its shape. -/
theorem message_of_parse {s : String} {fault : FormatFault} (h : parse s = .error fault) :
    fault.message =
      (TemporalShape.refusal (TemporalShape.of? s)).1 ++ s ++
        (TemporalShape.refusal (TemporalShape.of? s)).2 := by
  unfold parse at h
  cases hshape : TemporalShape.of? s with
  | none =>
    rw [hshape] at h
    cases h
    rfl
  | some shape =>
    rw [hshape] at h
    cases shape with
    | timeOfDay =>
      cases h
      rfl
    | date =>
      dsimp only at h
      split at h
      · cases h
      · cases h
        rfl
    | dateTime =>
      dsimp only at h
      split at h
      · cases h
      · cases h
        rfl

end Instant

/-- **Reading accepts exactly the written moments**: the text of a date that the calendar has, with
a time of day that a clock shows or without, in ASCII digits and nothing else, and it gives the
instant of that moment. Any other text is refused with a message that quotes it and whose wording
depends on the shape of the text alone; a text has at most one shape, the one that it is found to
have. Text that comes from a store becomes an instant exactly if it is read as one, and otherwise
stays as it is. -/
theorem Instant.parse_exact (s : String) :
    (∀ m, Moment.Spelled s m → m.Real → ∃ t, parse s = .ok t ∧ m.Is t) ∧
    (∀ t, parse s = .ok t → ∃ m, Moment.Spelled s m ∧ m.Real ∧ m.Is t) ∧
    ((∀ m, Moment.Spelled s m → ¬ m.Real) → ∃ fault, parse s = .error fault ∧
      (Failure.format fault).message = "Format error: " ++
        ((TemporalShape.refusal (TemporalShape.of? s)).1 ++ s ++
          (TemporalShape.refusal (TemporalShape.of? s)).2)) ∧
    (∀ shape, TemporalShape.of? s = some shape ↔ shape.Shaped s) ∧
    (∀ a b : TemporalShape, a.Shaped s → b.Shaped s → a = b) ∧
    (∀ t, (Value.text s).decode = .ok (.timestamp t) ↔ parse s = .ok t) ∧
    ((∀ t, parse s ≠ .ok t) → (Value.text s).decode = .ok (.text s)) := by
  refine ⟨fun m hs h => parse_of_spelled hs h, fun t h => spelled_of_parse h, ?refused,
    fun shape => TemporalShape.of?_eq_some_iff, ?one,
    fun t => Value.decode_text_eq_timestamp_iff, Value.decode_text_of_ne⟩
  case refused =>
    intro hnone
    cases h : parse s with
    | ok t =>
      obtain ⟨m, hspelled, hreal, -⟩ := spelled_of_parse h
      exact absurd hreal (hnone m hspelled)
    | error fault =>
      exact ⟨fault, rfl, congrArg ("Format error: " ++ ·) (message_of_parse h)⟩
  case one =>
    intro a b ha hb
    exact TemporalShape.eq_of_matches ((a.matches_iff_shaped s).mpr ha)
      ((b.matches_iff_shaped s).mpr hb)

theorem Instant.parse_exact_sampled :
    (∃ t, parse "2000-02-29 23:59:60" = .ok t ∧ Moment.Is ⟨2000, 2, 29, 23, 59, 60⟩ t ∧
      (Value.text "2000-02-29 23:59:60").decode = .ok (.timestamp t)) ∧
    ∃ fault, parse "1900-02-29" = .error fault ∧
      (Failure.format fault).message =
        "Format error: invalid date '1900-02-29': input is out of range" := by
  constructor
  · have hspelled : Moment.Spelled "2000-02-29 23:59:60" ⟨2000, 2, 29, 23, 59, 60⟩ := by
      have htext : String.ofList (Text.fixed 4 2000 ++ '-' :: Text.fixed 2 2 ++ '-' ::
          Text.fixed 2 29 ++ ' ' :: Text.fixed 2 23 ++ ':' :: Text.fixed 2 59 ++ ':' ::
          Text.fixed 2 60) = "2000-02-29 23:59:60" := by
        decide +kernel
      rw [← htext]
      exact .dateTime (by decide) (by decide) (by decide) (by decide) (by decide) (by decide)
    have hreal : Moment.Real ⟨2000, 2, 29, 23, 59, 60⟩ := by
      constructor
      · decide
      · decide
      · decide
      · decide
    obtain ⟨haccepts, -, -, -, -, hdecode, -⟩ := parse_exact "2000-02-29 23:59:60"
    obtain ⟨t, hparse, ht⟩ := haccepts _ hspelled hreal
    exact ⟨t, hparse, ht, (hdecode t).mpr hparse⟩
  · obtain ⟨-, -, hrefuses, -⟩ := parse_exact "1900-02-29"
    have hnone : ∀ m, Moment.Spelled "1900-02-29" m → ¬ m.Real := by
      rintro ⟨year, month, day, hour, minute, second⟩ hspelled hreal
      rcases hspelled.read with ⟨hread, -⟩ | hread
      · cases hread
        exact absurd (show Date.Valid ⟨1900, 2, 29⟩ from hreal.valid) (by decide)
      · cases hread
    obtain ⟨fault, hparse, hmessage⟩ := hrefuses hnone
    refine ⟨fault, hparse, hmessage.trans ?_⟩
    decide +kernel

end Tabular
