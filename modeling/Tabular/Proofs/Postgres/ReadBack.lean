import Tabular.Proofs.Accessor.Watch
import Tabular.Proofs.Calendar.CanonicalText
import Tabular.Proofs.Postgres.Rows

/-!
# Values stored in columns and read back

A server that returns the bytes bound to a column as they are gives back what was stored, up to
what the type of the column cannot hold.

- `Text.readSigned_bigEndian`: an integer that fits so many bytes reads back from them.
- `Postgres.readBack`: a value on its way into a column and out again, through all the conversions
  of an accessor: the form that it is kept in, its binding, the record of the row, and the form
  that it is read in. A table reads the same of a server (`Postgres.query_of_returned`).
- `Postgres.bindInstant_kept`: temporal columns get the same from an instant and from its text.
- `Postgres.readBack_faithful`: **what is read of what was stored**, by kinds and column types.
-/

namespace Tabular

/-! ## Words -/

namespace Text

/-- An integer that fits so many bytes reads back from them. -/
theorem readSigned_bigEndian {w : Nat} {n : Int} (hlow : -(Nat.pow 256 w : Int) ≤ 2 * n)
    (hhigh : 2 * n < Nat.pow 256 w) : readSigned (bigEndian w n) = n := by
  have hpos : (0 : Int) < Nat.pow 256 w := by omega
  have hnonneg : 0 ≤ n % Nat.pow 256 w := Int.emod_nonneg _ (by omega)
  have hlt : (n % Nat.pow 256 w).toNat < Nat.pow 256 w := by
    have hmod := Int.emod_lt_of_pos n hpos
    omega
  rw [readSigned, length_bigEndian, bigEndian, readNat_bigEndianNat hlt,
    Int.toNat_of_nonneg hnonneg, Int.emod_bmod]
  exact Int.bmod_eq_of_le_mul_two (by omega) (by omega)

end Text

namespace Postgres

theorem word?_bigEndian {w : Nat} {n : Int} (hlow : -(Nat.pow 256 w : Int) ≤ 2 * n)
    (hhigh : 2 * n < Nat.pow 256 w) : word? w (Text.bigEndian w n) = some n := by
  rw [word?, if_pos (Text.length_bigEndian w n), Text.readSigned_bigEndian hlow hhigh]

/-- An integer goes into a column of some bits if it lies in its range, and as it is. -/
theorem narrowed_eq_ok {bits : Nat} {n : Int} {bytes : Bytes} (h : narrowed bits n = .ok bytes) :
    bytes = Text.bigEndian (bits / 8) n ∧ -((1 <<< (bits - 1) : Nat) : Int) ≤ n ∧
      n < (1 <<< (bits - 1) : Nat) := by
  unfold narrowed narrow at h
  dsimp only at h
  by_cases hhigh : ((1 <<< (bits - 1) : Nat) : Int) ≤ n
  · rw [if_pos hhigh] at h
    cases h
  · by_cases hlow : n < -((1 <<< (bits - 1) : Nat) : Int)
    · rw [if_neg hhigh, if_pos hlow] at h
      cases h
    · rw [if_neg hhigh, if_neg hlow] at h
      cases h
      exact ⟨rfl, by omega, by omega⟩

/-! ## The way there and back -/

/-- What is read of a value that was stored in a column, if the server returns the bound bytes as
they are. -/
def readBack (column : AnswerColumn) (v : Value) : Except Failure Record :=
  (bindAll (Fragment.bind v).params [column.type]).bind fun cells =>
    (decodeRow [column] cells).bind Record.decode

/-- The value is read back from the column as this one. -/
def ReadsBack (column : AnswerColumn) (v w : Value) : Prop :=
  readBack column v = .ok ⟨[(column.name, w)]⟩

theorem bindAll_singleton (v : Value) (type : ColumnType) :
    bindAll (Fragment.bind v).params [type] =
      match bind v.encoded type with
      | .ok cell => .ok [cell]
      | .error _ => .error (.query (.parameter 0)) := by
  show bindFrom 0 [v.encoded] [type] = _
  rw [bindFrom]
  cases bind v.encoded type with
  | error e => rfl
  | ok cell => rfl

theorem exists_of_bindAll_singleton {v : Value} {type : ColumnType} {cells : List (Option Bytes)}
    (h : bindAll (Fragment.bind v).params [type] = .ok cells) :
    ∃ cell, bind v.encoded type = .ok cell ∧ cells = [cell] := by
  rw [bindAll_singleton] at h
  cases hcell : bind v.encoded type with
  | error e =>
    rw [hcell] at h
    cases h
  | ok cell =>
    rw [hcell] at h
    cases h
    exact ⟨cell, rfl, rfl⟩

/-- What is read back is what a table reads of a statement that binds the value alone, if the server
executes it and answers with one row, of the bytes that were bound. -/
theorem query_of_returned {ρ : Type} (t : Table ρ) {s : Server} {a : Fragment}
    {column : AnswerColumn} {v : Value} {cells : List (Option Bytes)} (debug : Bool)
    (hparams : a.params = (Fragment.bind v).params)
    (hexecutes : s.Executes (a.render .numbered) a.params cells)
    (htypes : s.next.parameters = [column.type]) (hcolumns : s.next.columns = [column])
    (hrows : s.next.rows = [cells]) (hrejection : s.next.rejection = none) :
    (t.query Server.engine a debug s).result = (readBack column v).map fun r => [r] := by
  have hquery : (t.query Server.engine a debug s).result =
      s.next.records.map (List.map Record.decoded) := by
    show ((t.request a debug).query Server.engine s).result = _
    rw [Request.query_apply]
    exact congrArg (fun o => o.result.map (List.map Record.decoded))
      (Server.engine_of_executes hexecutes).2
  have hbound : bindAll (Fragment.bind v).params [column.type] = .ok cells := by
    rw [← hparams, ← htypes]
    exact hexecutes.bindAll_eq
  have hrecords : s.next.records = (decodeRow [column] cells).map fun r => [r] := by
    obtain ⟨cell, -, rfl⟩ := exists_of_bindAll_singleton hbound
    rw [← hcolumns]
    refine Exchange.records_singleton hrows ?_ hrejection
    rw [hcolumns]
    rfl
  rw [hquery, hrecords, readBack, hbound]
  show _ = Except.map _ ((decodeRow [column] cells).bind Record.decode)
  cases decodeRow [column] cells with
  | error failure => rfl
  | ok r =>
    show _ = Except.map _ r.decode
    rw [r.decode_eq]
    rfl

/-- One cell makes a record of one column. -/
theorem readsBack_of_field {column : AnswerColumn} {v u w : Value} {cell : Option Bytes}
    (hbind : bind v.encoded column.type = .ok cell)
    (hfield : decodeField 0 column cell = .ok u) (hread : u.decoded = w) :
    ReadsBack column v w := by
  have hrow : decodeRow [column] [cell] = .ok ⟨[(column.name, u)]⟩ := by
    rw [decodeRow, decodeFrom, hfield]
    rfl
  rw [ReadsBack, readBack, bindAll_singleton, hbind]
  show (decodeRow [column] [cell]).bind Record.decode = _
  rw [hrow, ← hread]
  exact Record.decode_eq _

theorem readsBack_of_cell {name : String} {type : ColumnType} {v u w : Value} {bytes : Bytes}
    (hbind : bind v.encoded type = .ok (some bytes))
    (hcell : decodeCell? type bytes = some u) (hread : u.decoded = w) :
    ReadsBack ⟨name, type⟩ v w := by
  refine readsBack_of_field hbind ?_ hread
  rw [decodeField, hcell]

/-! ## Integers -/

/-- The column types of integers. -/
def integerTypes : List ColumnType := [.builtin .int2, .builtin .int4, .builtin .int8]

theorem decodeCell?_bindInteger {n : Int64} {type : ColumnType} (htype : type ∈ integerTypes)
    {bytes : Bytes} (h : bindInteger n type = .ok bytes) :
    decodeCell? type bytes = some (.integer n) := by
  have hword : ∀ {w : Nat}, word? w bytes = some n.toInt →
      (word? w bytes).map (fun m => Value.integer (Int64.ofInt m)) = some (.integer n) := by
    intro w hw
    rw [hw, Option.map_some, Int64.ofInt_toInt]
  simp only [integerTypes, List.mem_cons, List.not_mem_nil, or_false] at htype
  rcases htype with rfl | rfl | rfl
  · obtain ⟨rfl, hlow, hhigh⟩ := narrowed_eq_ok h
    refine hword (word?_bigEndian ?_ ?_)
    · -- twice the bounds of 16 bits, as `256 ^ 2` is
      show -65536 ≤ _
      omega
    · show _ < 65536
      omega
  · obtain ⟨rfl, hlow, hhigh⟩ := narrowed_eq_ok h
    refine hword (word?_bigEndian ?_ ?_)
    · show -4294967296 ≤ _
      omega
    · show _ < 4294967296
      omega
  · cases h
    have hlow := n.le_toInt
    have hhigh := n.toInt_lt
    refine hword (word?_bigEndian ?_ ?_)
    · show -18446744073709551616 ≤ _
      omega
    · show _ < 18446744073709551616
      omega

/-! ## Texts -/

/-- The column types of texts that are read as texts. -/
def textTypes : List ColumnType :=
  [.builtin .text, .builtin .varchar, .builtin .bpchar, .builtin .name]

/-- A text is read from the bytes that it is bound as. -/
theorem bindText_decodeCell? (s : String) {type : ColumnType} (htype : type ∈ textTypes) :
    bindText s type = .ok (Text.utf8 s) ∧ decodeCell? type (Text.utf8 s) = some (.text s) := by
  have hutf8 : (Text.ofUtf8? (Text.utf8 s)).map Value.text = some (.text s) := by
    rw [Text.ofUtf8?_utf8, Option.map_some]
  simp only [textTypes, List.mem_cons, List.not_mem_nil, or_false] at htype
  rcases htype with rfl | rfl | rfl | rfl
  · exact ⟨rfl, hutf8⟩
  · exact ⟨rfl, hutf8⟩
  · exact ⟨rfl, hutf8⟩
  · exact ⟨rfl, hutf8⟩

/-! ## Instants -/

/-- The seconds since 1970 at which the second of an instant begins, a leap second with the one
after it. -/
def start (t : Instant) : Int := t.seconds + if t.isLeap = true then 1 else 0

/-- A whole second is a whole number of microseconds. -/
theorem microseconds_wholeSecond (t : Instant) :
    microseconds t.wholeSecond = (start t - epochSeconds) * 1000000 := by
  have hnanos : t.wholeSecond.totalNanos - epochSeconds * 1000000000 =
      (start t - epochSeconds) * 1000000 * 1000 := by
    rw [Instant.totalNanos, Instant.nanos_wholeSecond, start]
    show t.seconds * 1000000000 + _ - _ = _
    -- within a leap second the nanoseconds of a whole second come to one second more
    split
    · omega
    · omega
  rw [microseconds, hnanos, Int.mul_tdiv_cancel _ (by decide)]

/-- The instant that begins a second. -/
theorem ofParts?_start {seconds : Int} (hlow : -8334601228800 ≤ seconds)
    (hhigh : seconds ≤ 8210266876799) :
    ∃ u, Instant.ofParts? seconds 0 = some u ∧ u.seconds = seconds ∧ u.nanos = 0 := by
  refine ⟨⟨seconds, 0, by decide, hlow, hhigh⟩, ?_, rfl, rfl⟩
  rw [Instant.ofParts?, dif_pos ⟨by decide, nofun, hlow, hhigh⟩]

/-- What canonical text keeps of an instant is bound to a temporal column as its second is. -/
theorem bindInstant_kept (t : Instant) {type : ColumnType}
    (htype : type ∈ [ColumnType.builtin .timestamp, .builtin .timestamptz, .builtin .date]) :
    bindInstant t.kept type = bindInstant t.wholeSecond type := by
  by_cases hstray : t.Stray
  case neg => rw [Instant.kept_of_not_stray hstray]
  -- a stray is kept as the second after the one that runs on, which is the same number of
  -- nanoseconds, on the same day
  obtain ⟨hseconds, hnanos⟩ := Instant.kept_of_stray hstray
  have htotal : t.kept.totalNanos = t.wholeSecond.totalNanos := by
    rw [Instant.totalNanos, Instant.totalNanos, hseconds, hnanos, Instant.nanos_wholeSecond,
      if_pos hstray.1]
    show _ = t.seconds * 1000000000 + _
    omega
  have hdays : t.kept.days = t.wholeSecond.days := by
    rw [Instant.days, Instant.days, hseconds]
    show _ = t.seconds / 86400
    have hends := hstray.2
    omega
  simp only [List.mem_cons, List.not_mem_nil, or_false] at htype
  unfold bindInstant microseconds
  rw [htotal, hdays]
  rcases htype with rfl | rfl | rfl
  · rfl
  · rfl
  · rfl

section

variable {t : Instant} (hfirst : 0 ≤ t.date.year) (hlast : t.date.year ≤ 9999)

include hfirst hlast

/-- An instant bound to a temporal column is bound without what had passed of its second. -/
theorem bind_encoded_timestamp {type : ColumnType}
    (htype : type ∈ [ColumnType.builtin .timestamp, .builtin .timestamptz, .builtin .date]) :
    bind (Value.timestamp t).encoded type = (bindInstant t.wholeSecond type).map some := by
  show (bindText t.canonical type).map some = _
  have hparse := Instant.parse_canonical hfirst hlast
  rw [← bindInstant_kept t htype]
  unfold bindText
  simp only [List.mem_cons, List.not_mem_nil, or_false] at htype
  rcases htype with rfl | rfl | rfl
  · dsimp only
    rw [hparse]
  · dsimp only
    rw [hparse]
  · dsimp only
    rw [hparse]

/-- Microseconds are read as the instant that they were counted to. -/
theorem decodeCell?_microseconds : ∃ u,
    (word? 8 (Text.bigEndian 8 (microseconds t.wholeSecond))).bind
        (fun n => (instantOfMicroseconds? n).map Value.timestamp) = some (.timestamp u) ∧
      u.seconds = start t ∧ u.nanos = 0 := by
  obtain ⟨hlow, hhigh⟩ := Instant.seconds_bounds hfirst hlast
  have hstart : -62167219200 ≤ start t ∧ start t ≤ 253402300800 := by
    rw [start]
    split
    · omega
    · omega
  have hepoch : epochSeconds = 946684800 := rfl
  have hword : word? 8 (Text.bigEndian 8 (microseconds t.wholeSecond)) =
      some ((start t - epochSeconds) * 1000000) := by
    rw [microseconds_wholeSecond]
    refine word?_bigEndian ?_ ?_
    · show -18446744073709551616 ≤ _
      omega
    · show _ < 18446744073709551616
      omega
  obtain ⟨u, hu, hseconds, hnanos⟩ := @ofParts?_start (start t) (by omega) (by omega)
  -- a whole number of seconds leaves no microseconds over, before 2000 as after it
  have hread : instantOfMicroseconds? ((start t - epochSeconds) * 1000000) = some u := by
    rw [instantOfMicroseconds?, Int.mul_ediv_cancel _ (by decide), Int.mul_emod_left]
    rw [show epochSeconds + (start t - epochSeconds) = start t by omega]
    exact hu
  refine ⟨u, ?_, hseconds, hnanos⟩
  rw [hword, Option.bind_some, hread, Option.map_some]

/-- Days are read as the midnight that they were counted to. -/
theorem decodeCell?_days : ∃ u,
    decodeCell? (.builtin .date) (Text.bigEndian 4 (t.wholeSecond.days - epochDays)) =
        some (.timestamp u) ∧
      u.seconds = t.days * 86400 ∧ u.nanos = 0 := by
  obtain ⟨hlow, hhigh⟩ := Instant.days_bounds hfirst hlast
  have hdays : t.wholeSecond.days = t.days := rfl
  have hepoch : epochDays = 10957 := rfl
  have hword : word? 4 (Text.bigEndian 4 (t.days - epochDays)) = some (t.days - epochDays) := by
    refine word?_bigEndian ?_ ?_
    · show -4294967296 ≤ _
      omega
    · show _ < 4294967296
      omega
  obtain ⟨u, hu, hseconds, hnanos⟩ := @ofParts?_start (t.days * 86400) (by omega) (by omega)
  have hread : instantOfDays? (t.days - epochDays) = some u := by
    rw [instantOfDays?, show epochDays + (t.days - epochDays) = t.days by omega]
    exact hu
  have hcell : ∀ bytes, decodeCell? (.builtin .date) bytes =
      (word? 4 bytes).bind fun n => (instantOfDays? n).map .timestamp := fun _ => rfl
  refine ⟨u, ?_, hseconds, hnanos⟩
  rw [hcell, hdays, hword, Option.bind_some, hread, Option.map_some]

theorem readsBack_timestamp (name : String) {type : ColumnType}
    (htype : type ∈ [ColumnType.builtin .timestamp, .builtin .timestamptz]) :
    ∃ u : Instant, u.seconds = start t ∧ u.nanos = 0 ∧
      ReadsBack ⟨name, type⟩ (.timestamp t) (.timestamp u) := by
  obtain ⟨u, hcell, hseconds, hnanos⟩ := decodeCell?_microseconds hfirst hlast
  refine ⟨u, hseconds, hnanos, ?_⟩
  simp only [List.mem_cons, List.not_mem_nil, or_false] at htype
  rcases htype with rfl | rfl
  · exact readsBack_of_cell (bind_encoded_timestamp hfirst hlast (by decide)) hcell rfl
  · exact readsBack_of_cell (bind_encoded_timestamp hfirst hlast (by decide)) hcell rfl

theorem readsBack_date (name : String) :
    ∃ u : Instant, u.seconds = t.days * 86400 ∧ u.nanos = 0 ∧
      ReadsBack ⟨name, .builtin .date⟩ (.timestamp t) (.timestamp u) := by
  obtain ⟨u, hcell, hseconds, hnanos⟩ := decodeCell?_days hfirst hlast
  refine ⟨u, hseconds, hnanos, ?_⟩
  exact readsBack_of_cell (bind_encoded_timestamp hfirst hlast (by decide)) hcell rfl

end

theorem readsBack_text (name s : String) {type : ColumnType} (htype : type ∈ textTypes) :
    ReadsBack ⟨name, type⟩ (.text s) (Value.text s).decoded := by
  obtain ⟨hbind, hcell⟩ := bindText_decodeCell? s htype
  refine readsBack_of_cell ?_ hcell rfl
  show (bindText s type).map some = _
  rw [hbind]
  rfl

/-- An instant in a text column is its canonical text, and is read as what that keeps. -/
theorem readsBack_kept {t : Instant} (hfirst : 0 ≤ t.date.year) (hlast : t.date.year ≤ 9999)
    (name : String) {type : ColumnType} (htype : type ∈ textTypes) :
    ReadsBack ⟨name, type⟩ (.timestamp t) (.timestamp t.kept) := by
  have htext : (Value.text t.canonical).decoded = .timestamp t.kept := by
    unfold Value.decoded
    dsimp only
    rw [Instant.parse_canonical hfirst hlast]
  rw [← htext]
  exact readsBack_text name t.canonical htype

/-! ## What is read of what was stored -/

/-- **Values survive a column.** Null is read back from a column of any type; an integer from a
column of integers that accepts it; a bool, a blob and a text from columns of their own, the text
in the form that texts are read in. Of an instant of the years 0 to 9999 a temporal column keeps
the second, a leap second as the start of the one after it, a date column keeps the day, and a text
column keeps the second as it is, but for strays, of which it keeps the start of the second that
they are shown like. -/
theorem readBack_faithful (name : String) :
    (∀ type, ReadsBack ⟨name, type⟩ .null .null) ∧
      (∀ n : Int64, ∀ type ∈ integerTypes,
        (∃ cells, bindAll (Fragment.bind (.integer n)).params [type] = .ok cells) →
          ReadsBack ⟨name, type⟩ (.integer n) (.integer n)) ∧
      (∀ b, ReadsBack ⟨name, .builtin .bool⟩ (.bool b) (.bool b)) ∧
      (∀ bytes, ReadsBack ⟨name, .builtin .bytea⟩ (.blob bytes) (.blob bytes)) ∧
      (∀ s, ∀ type ∈ textTypes, ∃ w, (Value.text s).decode = .ok w ∧
        ReadsBack ⟨name, type⟩ (.text s) w) ∧
      ∀ t : Instant, 0 ≤ t.date.year → t.date.year ≤ 9999 →
        (∀ type ∈ [ColumnType.builtin .timestamp, .builtin .timestamptz],
          ∃ u : Instant, u.seconds = start t ∧ u.nanos = 0 ∧
            ReadsBack ⟨name, type⟩ (.timestamp t) (.timestamp u)) ∧
        (∃ u : Instant, u.seconds = t.days * 86400 ∧ u.nanos = 0 ∧
          ReadsBack ⟨name, .builtin .date⟩ (.timestamp t) (.timestamp u)) ∧
        ∀ type ∈ textTypes,
          (¬ t.Stray → ReadsBack ⟨name, type⟩ (.timestamp t) (.timestamp t.wholeSecond)) ∧
          (t.Stray → ∃ u : Instant, u.seconds = start t ∧ u.nanos = 0 ∧
            ReadsBack ⟨name, type⟩ (.timestamp t) (.timestamp u)) := by
  refine ⟨?null, ?integer, ?bool, ?blob, ?text, ?instant⟩
  case null =>
    intro type
    exact readsBack_of_field rfl rfl rfl
  case integer =>
    rintro n type htype ⟨cells, hcells⟩
    -- a column that accepts the parameter has bound it to bytes
    obtain ⟨cell, hcell, -⟩ := exists_of_bindAll_singleton hcells
    have hmap : (bindInteger n type).map some = .ok cell := hcell
    obtain ⟨bytes, hbytes, rfl⟩ := map_eq_ok_iff.mp hmap
    exact readsBack_of_cell hcell (decodeCell?_bindInteger htype hbytes) rfl
  case bool =>
    intro b
    cases b with
    | false => exact readsBack_of_cell rfl rfl rfl
    | true => exact readsBack_of_cell rfl rfl rfl
  case blob =>
    intro bytes
    exact readsBack_of_cell rfl rfl rfl
  case text =>
    intro s type htype
    exact ⟨_, Value.decode_eq _, readsBack_text name s htype⟩
  case instant =>
    intro t hfirst hlast
    refine ⟨?_, readsBack_date hfirst hlast name, ?_⟩
    · intro type htype
      exact readsBack_timestamp hfirst hlast name htype
    · intro type htype
      have hkept := readsBack_kept hfirst hlast name htype
      constructor
      · intro hstray
        rw [← Instant.kept_of_not_stray hstray]
        exact hkept
      · intro hstray
        obtain ⟨hseconds, hnanos⟩ := Instant.kept_of_stray hstray
        refine ⟨t.kept, ?_, hnanos, hkept⟩
        rw [hseconds, start, if_pos hstray.1]

/-- A quarter of a second into the leap second at the end of 2016. -/
def sampledLeapSecond : Instant where
  seconds := 1483228799
  nanos := 1250000000
  nanos_lt := by decide
  first_le := by decide
  le_last := by decide

theorem readBack_faithful_sampled :
    (∃ cells, bindAll (Fragment.bind (.integer (-7))).params [.builtin .int2] = .ok cells) ∧
      ReadsBack ⟨"n", .builtin .int2⟩ (.integer (-7)) (.integer (-7)) ∧
      (0 ≤ sampledLeapSecond.date.year ∧ sampledLeapSecond.date.year ≤ 9999) ∧
      (∃ u : Instant, u.seconds = 1483228800 ∧ u.nanos = 0 ∧
        ReadsBack ⟨"n", .builtin .timestamptz⟩ (.timestamp sampledLeapSecond) (.timestamp u)) ∧
      (∃ u : Instant, u.seconds = 17166 * 86400 ∧ u.nanos = 0 ∧
        ReadsBack ⟨"n", .builtin .date⟩ (.timestamp sampledLeapSecond) (.timestamp u)) ∧
      ReadsBack ⟨"n", .builtin .text⟩ (.timestamp sampledLeapSecond)
        (.timestamp sampledLeapSecond.wholeSecond) ∧
      (0 ≤ Instant.sampledStray.date.year ∧ Instant.sampledStray.date.year ≤ 9999) ∧
      ∃ u : Instant, u.seconds = 1717230606 ∧ u.nanos = 0 ∧
        ReadsBack ⟨"n", .builtin .text⟩ (.timestamp Instant.sampledStray) (.timestamp u) := by
  obtain ⟨-, hinteger, -, -, -, hinstant⟩ := readBack_faithful "n"
  have haccepted : ∃ cells,
      bindAll (Fragment.bind (.integer (-7))).params [.builtin .int2] = .ok cells := ⟨_, rfl⟩
  have hyear : 0 ≤ sampledLeapSecond.date.year ∧ sampledLeapSecond.date.year ≤ 9999 := by
    decide +kernel
  have hyear' : 0 ≤ Instant.sampledStray.date.year ∧ Instant.sampledStray.date.year ≤ 9999 := by
    decide +kernel
  obtain ⟨htimestamp, hdate, htext⟩ := hinstant sampledLeapSecond hyear.1 hyear.2
  obtain ⟨-, -, hstray⟩ := hinstant Instant.sampledStray hyear'.1 hyear'.2
  exact ⟨haccepted, hinteger (-7) _ (by decide) haccepted, hyear,
    htimestamp (.builtin .timestamptz) (by decide), hdate,
    (htext (.builtin .text) (by decide)).1 (by decide), hyear',
    (hstray (.builtin .text) (by decide)).2 (by decide)⟩

end Postgres

end Tabular
