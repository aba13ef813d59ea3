import Tabular.Proofs.Postgres.ReadBack

/-!
# Instants as parameters

An instant goes to a column in one of two ways: as it is, counted from 2000-01-01, or as the
canonical text that accessors bind, which a temporal column reads as an instant again.

- `Postgres.Truncates`: a number in whole units, without the part of a unit that is left over.
- `Postgres.truncates_microseconds`, `Postgres.microseconds_bounds`, `Postgres.days_bounds`: what is
  counted, and that it fits the words that it is sent in, for every instant.
- `Postgres.bindText_of_notMem`, `Postgres.bindInstant_of_notMem`: any other column takes the text.
- `Postgres.bind_canonical`: **both ways lead to the same bytes**, to the second in which the
  instant lies.
-/

namespace Tabular

namespace Postgres

/-! ## What is counted -/

/-- There are `q` whole units between zero and `n`: what is left over is dropped toward zero. -/
structure Truncates (unit n q : Int) : Prop where
  upward : 0 ≤ n → unit * q ≤ n ∧ n < unit * (q + 1)
  downward : n ≤ 0 → unit * (q - 1) < n ∧ n ≤ unit * q

theorem truncates_tdiv {unit : Int} (hunit : 0 < unit) (n : Int) :
    Truncates unit n (n.tdiv unit) := by
  have hsum := Int.mul_tdiv_add_tmod n unit
  constructor
  · intro hn
    have hnonneg := Int.tmod_nonneg unit hn
    have hlt := Int.tmod_lt_of_pos n hunit
    rw [Int.mul_add, Int.mul_one]
    omega
  · intro hn
    -- below zero the remainder is that of the opposite number, with its sign
    have hnonneg := Int.tmod_nonneg unit (Int.neg_nonneg_of_nonpos hn)
    have hlt := Int.tmod_lt_of_pos (-n) hunit
    rw [Int.neg_tmod] at hnonneg hlt
    rw [Int.mul_sub, Int.mul_one]
    omega

/-- The day from which columns count. -/
def firstDay : Int := Date.toDays ⟨2000, 1, 1⟩

/-- The nanoseconds from the midnight that columns count from, those of a leap second added to the
second before it. -/
def nanosecondsSince (t : Instant) : Int := (t.seconds - firstDay * 86400) * 1000000000 + t.nanos

theorem truncates_microseconds (t : Instant) :
    Truncates 1000 (nanosecondsSince t) (microseconds t) := by
  have hnanos : nanosecondsSince t = t.totalNanos - epochSeconds * 1000000000 := by
    rw [nanosecondsSince, Instant.totalNanos, show firstDay * 86400 = epochSeconds from rfl]
    omega
  rw [hnanos]
  exact truncates_tdiv (by decide) _

/-- The microseconds of every instant fit a word of 64 bits. -/
theorem microseconds_bounds (t : Instant) :
    -9223372036854775808 ≤ microseconds t ∧ microseconds t < 9223372036854775808 := by
  have hfirst := t.first_le
  have hlast := t.le_last
  have hnanos := t.nanos_lt
  have hsince : nanosecondsSince t = (t.seconds - 946684800) * 1000000000 + t.nanos := rfl
  obtain ⟨hup, hdown⟩ := truncates_microseconds t
  rcases Int.le_total 0 (nanosecondsSince t) with h | h
  · obtain ⟨hle, hlt⟩ := hup h
    omega
  · obtain ⟨hlt, hle⟩ := hdown h
    omega

/-- The days of every instant fit a word of 32 bits. -/
theorem days_bounds (t : Instant) :
    -2147483648 ≤ t.days - firstDay ∧ t.days - firstDay < 2147483648 := by
  have hfirst := t.first_le
  have hlast := t.le_last
  rw [Instant.days, show firstDay = 10957 from rfl]
  omega

theorem word?_microseconds (t : Instant) :
    word? 8 (Text.bigEndian 8 (microseconds t)) = some (microseconds t) := by
  obtain ⟨hlow, hhigh⟩ := microseconds_bounds t
  refine word?_bigEndian ?_ ?_
  · show -18446744073709551616 ≤ _
    omega
  · show _ < 18446744073709551616
    omega

theorem word?_days (t : Instant) :
    word? 4 (Text.bigEndian 4 (t.days - firstDay)) = some (t.days - firstDay) := by
  obtain ⟨hlow, hhigh⟩ := days_bounds t
  refine word?_bigEndian ?_ ?_
  · show -4294967296 ≤ _
    omega
  · show _ < 4294967296
    omega

/-! ## The two ways -/

/-- The column types that hold points in time. -/
def temporalTypes : List ColumnType :=
  [.builtin .timestamp, .builtin .timestamptz, .builtin .date]

/-- Any other column takes a text as it is, or not at all. -/
theorem bindText_of_notMem (s : String) {type : ColumnType} (h : type ∉ temporalTypes) :
    bindText s type = bindPlainText s type := by
  unfold bindText
  split
  · exact absurd (by decide) h
  · exact absurd (by decide) h
  · exact absurd (by decide) h
  · rfl

/-- Any other column takes the canonical text of an instant. -/
theorem bindInstant_of_notMem (t : Instant) {type : ColumnType} (h : type ∉ temporalTypes) :
    bindInstant t type = bindPlainText t.canonical type := by
  unfold bindInstant
  split
  · exact absurd (by decide) h
  · exact absurd (by decide) h
  · exact absurd (by decide) h
  · rfl

/-- **An instant and its canonical text are bound alike.** The text is what accessors bind for the
instant. In the years 0 to 9999 a temporal column gets from the text the bytes of the second in
which the instant lies, and a date those of the instant itself; any other column gets the same bytes
from both, or refuses both for the same reason, whatever the year. The bytes of an instant are the
word of its microseconds since 2000-01-01, cut toward zero, or of its days since then, and every
instant has such a word. -/
theorem bind_canonical (t : Instant) :
    (Fragment.bind (.timestamp t)).params = [.text t.canonical] ∧
    (0 ≤ t.date.year ∧ t.date.year ≤ 9999 →
      (∀ type ∈ temporalTypes,
        bind (.text t.canonical) type = bind (.timestamp t.wholeSecond) type) ∧
      bind (.text t.canonical) (.builtin .date) = bind (.timestamp t) (.builtin .date)) ∧
    (∀ type, type ∉ temporalTypes →
      bind (.text t.canonical) type = bind (.timestamp t) type) ∧
    (∀ type ∈ [ColumnType.builtin .timestamp, .builtin .timestamptz], ∃ bytes n,
      bind (.timestamp t) type = .ok (some bytes) ∧ word? 8 bytes = some n ∧
        Truncates 1000 (nanosecondsSince t) n) ∧
    ∃ bytes, bind (.timestamp t) (.builtin .date) = .ok (some bytes) ∧
      word? 4 bytes = some (t.days - firstDay) := by
  refine ⟨rfl, ?years, ?others, ?timestamp, ?date⟩
  case years =>
    rintro ⟨hfirst, hlast⟩
    have htext : ∀ type ∈ temporalTypes,
        bind (.text t.canonical) type = bind (.timestamp t.wholeSecond) type :=
      fun type htype => bind_encoded_timestamp hfirst hlast htype
    refine ⟨htext, ?_⟩
    -- the day of an instant is that of its second
    rw [htext _ (by decide)]
    rfl
  case others =>
    intro type htype
    show (bindText _ type).map some = (bindInstant t type).map some
    rw [bindText_of_notMem _ htype, bindInstant_of_notMem t htype]
  case timestamp =>
    intro type htype
    refine ⟨Text.bigEndian 8 (microseconds t), microseconds t, ?_, word?_microseconds t,
      truncates_microseconds t⟩
    simp only [List.mem_cons, List.not_mem_nil, or_false] at htype
    rcases htype with rfl | rfl
    · rfl
    · rfl
  case date => exact ⟨_, rfl, word?_days t⟩

/-- Nine tenths of a second into a leap second at the end of 1999. -/
def sampledMillennium : Instant where
  seconds := 946684799
  nanos := 1900000000
  nanos_lt := by decide
  first_le := by decide
  le_last := by decide

theorem bind_canonical_sampled :
    (0 ≤ sampledMillennium.date.year ∧ sampledMillennium.date.year ≤ 9999) ∧
      sampledMillennium.canonical = "1999-12-31 23:59:60" ∧
      bind (.text sampledMillennium.canonical) (.builtin .timestamp) =
        bind (.timestamp sampledMillennium.wholeSecond) (.builtin .timestamp) ∧
      bind (.timestamp sampledMillennium.wholeSecond) (.builtin .timestamp) =
        .ok (some [0, 0, 0, 0, 0, 0, 0, 0]) ∧
      bind (.text sampledMillennium.canonical) (.builtin .date) =
        bind (.timestamp sampledMillennium) (.builtin .date) ∧
      bind (.timestamp sampledMillennium) (.builtin .date) = .ok (some [255, 255, 255, 255]) ∧
      bind (.text sampledMillennium.canonical) (.builtin .int4) =
        bind (.timestamp sampledMillennium) (.builtin .int4) ∧
      (∃ bytes n, bind (.timestamp sampledMillennium) (.builtin .timestamptz) = .ok (some bytes) ∧
        word? 8 bytes = some n ∧ Truncates 1000 (nanosecondsSince sampledMillennium) n) ∧
      (0 ≤ Instant.sampledStray.date.year ∧ Instant.sampledStray.date.year ≤ 9999) ∧
      bind (.text Instant.sampledStray.canonical) (.builtin .timestamp) =
        bind (.timestamp Instant.sampledStray.wholeSecond) (.builtin .timestamp) := by
  have hyear : 0 ≤ sampledMillennium.date.year ∧ sampledMillennium.date.year ≤ 9999 := by
    decide +kernel
  have hyear' : 0 ≤ Instant.sampledStray.date.year ∧ Instant.sampledStray.date.year ≤ 9999 := by
    decide +kernel
  obtain ⟨-, hyears, hothers, htimestamp, -⟩ := bind_canonical sampledMillennium
  obtain ⟨-, hyears', -⟩ := bind_canonical Instant.sampledStray
  obtain ⟨htemporal, hdate⟩ := hyears hyear
  exact ⟨hyear, by decide +kernel, htemporal _ (by decide), rfl, hdate, rfl,
    hothers _ (by decide), htimestamp _ (by decide), hyear', (hyears' hyear').1 _ (by decide)⟩

end Postgres

end Tabular
