import Tabular.Proofs.Json.Reading
import Tabular.Proofs.Record.History

/-!
# Records in data exchange

- `Value.image`, `Record.image`: what a value and a record are to those who read their text.
- `Instant.exchange_eq`: the exchange text of an instant is its canonical text, written as data
  exchange has it.
- `Record.exchanged_faithfully`: **a record is read back from its text** by every conforming reader,
  and the text can be read in no other way.
-/

namespace Tabular

/-! ## Instants -/

namespace Instant

/-- No character of a text is a blank. -/
def Unbroken (cs : List Char) : Prop := ∀ c ∈ cs, c ≠ ' '

theorem unbroken_of_isDigit {cs : List Char} (h : ∀ c ∈ cs, c.isDigit = true) : Unbroken cs := by
  rintro c hc rfl
  exact absurd (h _ hc) (by decide)

theorem unbroken_fixed (w n : Nat) : Unbroken (Text.fixed w n) :=
  unbroken_of_isDigit fun _ hc => Text.isDigit_of_mem_fixed hc

theorem unbroken_padded (w n : Nat) : Unbroken (Text.padded w n) := by
  refine unbroken_of_isDigit fun c hc => ?_
  rcases List.mem_append.mp hc with hc | hc
  · rw [List.eq_of_mem_replicate hc]
    rfl
  · exact Text.isDigit_of_mem_decimal hc

theorem unbroken_append {cs ds : List Char} : Unbroken (cs ++ ds) ↔ Unbroken cs ∧ Unbroken ds :=
  List.forall_mem_append

theorem unbroken_cons {c : Char} {cs : List Char} : Unbroken (c :: cs) ↔ c ≠ ' ' ∧ Unbroken cs :=
  List.forall_mem_cons

theorem unbroken_yearText (year : Int) : Unbroken (yearText year) := by
  unfold yearText
  split
  · exact unbroken_fixed 4 _
  · refine unbroken_cons.mpr ⟨?_, unbroken_padded 4 _⟩
    split <;> decide

theorem unbroken_dateText (t : Instant) : Unbroken t.dateText := by
  simp [dateText, unbroken_append, unbroken_cons, unbroken_yearText, unbroken_fixed]

theorem unbroken_timeText (t : Instant) : Unbroken t.timeText := by
  simp [timeText, unbroken_append, unbroken_cons, unbroken_fixed]

/-- A `T` in place of a blank. -/
def markBlank (c : Char) : Char := if c = ' ' then 'T' else c

theorem map_markBlank {cs : List Char} (h : Unbroken cs) : cs.map markBlank = cs := by
  refine (List.map_congr_left fun c hc => ?_).trans (List.map_id cs)
  exact if_neg (h c hc)

/-- The canonical text has one blank, between the date and the time of day. -/
theorem exchange_eq (t : Instant) : t.exchange = t.canonical.map markBlank ++ "Z" := by
  rw [← String.toList_inj, String.toList_append, String.toList_map, canonical, exchange,
    String.toList_ofList, String.toList_ofList, List.map_append, List.map_cons,
    map_markBlank t.unbroken_dateText, map_markBlank t.unbroken_timeText]
  simp [markBlank]

end Instant

/-! ## Images -/

/-- What a value is to those who read its text: a blob is the array of its bytes, and an instant
its canonical text with a `T` for the blank and a `Z` after it. Reals have no image of their own. -/
def Value.image : Value → Json.Document
  | null => .null
  | integer n => .number n.toInt
  | real _ => .null
  | text s => .text s
  | bool b => .bool b
  | blob bytes => .array (bytes.map fun b => .number b.toNat)
  | timestamp t => .text (t.canonical.map Instant.markBlank ++ "Z")

/-- What a record is to those who read its text: an object with the keys in order. -/
def Record.image (r : Record) : Json.Document := .object (r.entries.map fun e => (e.1, e.2.image))

open Json (StandsFor Interoperable Denotes)

theorem standsFor_bytes (bytes : Bytes) :
    StandsFor (.list (bytes.map fun b => .integer b.toNat))
      (.array (bytes.map fun b => .number b.toNat)) := by
  induction bytes with
  | nil => exact .noItem
  | cons b bytes ih => exact .item (.integer b.toNat) ih

theorem Value.standsFor_image {v : Value} (h : v.kind ≠ .real) : StandsFor v.toJson v.image := by
  cases v with
  | null => exact .null
  | integer n => exact .integer n.toInt
  | real => exact absurd rfl h
  | text s => exact .text s
  | bool b => exact .bool b
  | blob bytes => exact standsFor_bytes bytes
  | timestamp t =>
    rw [image, ← Instant.exchange_eq]
    exact .text t.exchange

theorem Value.interoperable_image (depth : Nat) (v : Value) :
    Interoperable (depth + 1) v.image := by
  cases v with
  | null => exact .null _
  | integer n => exact .number _ n
  | real => exact .null _
  | text s => exact .text _ s
  | bool b => exact .bool _ b
  | blob bytes =>
    refine .array fun d hd => ?_
    obtain ⟨b, -, rfl⟩ := List.mem_map.mp hd
    have hlt := b.toNat_lt
    have hnumber := Interoperable.number depth (Int64.ofNat b.toNat)
    rw [Int64.toInt_ofNat_of_lt (by omega)] at hnumber
    exact hnumber
  | timestamp t => exact .text _ _

namespace Record

theorem standsFor_image {r : Record} (h : ∀ e ∈ r.entries, e.2.kind ≠ .real) :
    StandsFor r.toJson r.image := by
  have hentries : ∀ es : List (String × Value), (∀ e ∈ es, e.2.kind ≠ .real) →
      StandsFor (.object (es.map fun e => (e.1, e.2.toJson)))
        (.object (es.map fun e => (e.1, e.2.image))) := by
    intro es hes
    induction es with
    | nil => exact .noMember
    | cons e es ih =>
      obtain ⟨he, hes⟩ := List.forall_mem_cons.mp hes
      exact .member (Value.standsFor_image he) (ih hes)
  exact hentries r.entries h

/-- Blobs lie in a record, and nothing lies deeper. -/
theorem interoperable_image {r : Record} (h : r.names.Nodup) (depth : Nat) :
    Interoperable (depth + 2) r.image := by
  refine .object ?_ fun m hm => ?_
  · rw [List.map_map]
    exact h
  · obtain ⟨e, -, rfl⟩ := List.mem_map.mp hm
    exact e.2.interoperable_image depth

/-- **A record is read back from its text.** No two of its keys are equal. Its text is one object
with no blanks between tokens, and stands for the image of the record and for nothing else. Every
conforming reader that goes two levels deep finds that image, and the reader of this library finds
what was written. -/
theorem exchanged_faithfully {ss : List Step} {r : Record} (h : run ss = .ok r)
    (hreal : ∀ e ∈ r.entries, e.2.kind ≠ .real) :
    r.names.Nodup ∧
    Denotes .compact r.toJson.toText r.image ∧
    (∀ d, Denotes .standard r.toJson.toText d ↔ d = r.image) ∧
    (∀ read, Json.Conforming 2 read → read r.toJson.toText = some r.image) ∧
    Json.parse r.toJson.toText.toList = .ok r.toJson := by
  have hnodup := nodup_names_run h
  have hstands := standsFor_image hreal
  have hintegral := hstands.denotes.mono Json.Dialect.compact_within_integral
  have hstandard := hintegral.mono Json.Dialect.integral_within_standard
  refine ⟨hnodup, hstands.denotes, fun d => ⟨fun hd => hd.unique hstandard, ?_⟩, ?_,
    Json.parse_toText hstands (interoperable_image hnodup 125)⟩
  · rintro rfl
    exact hstandard
  · intro read hread
    exact hread _ _ hintegral (interoperable_image hnodup 0)

/-- A leap second of the first minute of the year 10000, an eighth of it passed. -/
def lateSecond : Instant where
  seconds := 253402300859
  nanos := 1125000000
  nanos_lt := by decide
  first_le := by decide
  le_last := by decide

/-- Keys and texts with quotes and control characters, and a value of every kind that has an image
of its own. -/
def exchangedSteps : List Step :=
  [.insert "say \"hi\" \\" .null, .insert "" (.text "\x00é\n"), .insert "b" (.blob [0, 255]),
    .insert "t" (.timestamp lateSecond), .insert "y" (.bool true),
    .insert "say \"hi\" \\" (.integer Int64.minValue), .insert "z" .null]

/-- The record that they leave. -/
def exchangedRecord : Record :=
  ⟨[("say \"hi\" \\", .integer Int64.minValue), ("", .text "\x00é\n"), ("b", .blob [0, 255]),
    ("t", .timestamp lateSecond), ("y", .bool true), ("z", .null)]⟩

/-- Its text. -/
def exchangedText : String :=
  "\x7b\"say \\\"hi\\\" \\\\\":-9223372036854775808,\"\":\"\\u0000é\\n\",\"b\":[0,255]," ++
    "\"t\":\"+10000-01-01T00:00:60Z\",\"y\":true,\"z\":null\x7d"

theorem exchanged_faithfully_sampled :
    run exchangedSteps = .ok exchangedRecord ∧ exchangedRecord.toJson.toText = exchangedText ∧
    exchangedRecord.image = .object [("say \"hi\" \\", .number (-9223372036854775808 : Int)),
      ("", .text "\x00é\n"), ("b", .array [.number (0 : Nat), .number (255 : Nat)]),
      ("t", .text "+10000-01-01T00:00:60Z"), ("y", .bool true), ("z", .null)] ∧
    Denotes .compact exchangedText exchangedRecord.image ∧
    (∃ read, Json.Conforming 2 read ∧ read exchangedText = some exchangedRecord.image) ∧
    Json.parse exchangedText.toList = .ok exchangedRecord.toJson := by
  have hrun : run exchangedSteps = .ok exchangedRecord := rfl
  have hreal : ∀ e ∈ exchangedRecord.entries, e.2.kind ≠ .real := by decide
  have htext : exchangedRecord.toJson.toText = exchangedText := by decide
  have hlate : lateSecond.exchange = "+10000-01-01T00:00:60Z" := by decide
  obtain ⟨-, hcompact, -, hread, hparse⟩ := exchanged_faithfully hrun hreal
  obtain ⟨read, hconforming⟩ := Json.exists_conforming 2
  rw [htext] at hcompact hread hparse
  refine ⟨hrun, htext, ?_, hcompact, ⟨read, hconforming, hread read hconforming⟩, hparse⟩
  rw [image]
  simp only [exchangedRecord, List.map_cons, List.map_nil, Value.image, ← Instant.exchange_eq,
    hlate]
  rfl

end Record

end Tabular
