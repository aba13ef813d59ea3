import Tabular.Proofs.Accessor.Exchange
import Tabular.Proofs.Calendar.Shapes
import Tabular.Proofs.Fragment.Symbols

/-!
# Reading what was read before

Rows change when they are read, since dates in texts become instants, and they change once: a row
that is inserted as it was read is read as it was inserted.

- `Value.decoded_decoded`, `Value.decoded_encoded_decoded`: values that are read twice, and values
  that are written in between.
- `Statement.params_insert`: an insertion has the values of its row in their order.
- `Record.Rereads`: what is so of a row and of the row that it is read as.
- `Table.query_rereads`: **this is so of all rows of an answer**, which are read without failing.
-/

namespace Tabular

/-! ## Values -/

namespace Value

/-- Canonical text keeps the value as it is. -/
def Settled : Value → Prop
  | timestamp t => t.Settled
  | _ => True

/-- A text that denotes no instant stays as it is. -/
theorem decoded_of_undated {s : String} (h : Undated s) : (text s).decoded = text s := by
  rw [decoded]
  cases hparse : Instant.parse s with
  | ok t => exact absurd hparse (Instant.parse_ne_ok h t)
  | error fault => rfl

/-- A text is read as itself or as an instant that canonical text keeps. -/
theorem decoded_text (s : String) :
    (text s).decoded = text s ∨ ∃ t : Instant, t.Settled ∧ (text s).decoded = timestamp t := by
  rw [decoded]
  cases hparse : Instant.parse s with
  | ok t => exact .inr ⟨t, Instant.settled_of_parse hparse, rfl⟩
  | error fault => exact .inl rfl

theorem decoded_decoded (v : Value) : v.decoded.decoded = v.decoded := by
  cases v with
  | text s =>
    rcases decoded_text s with h | ⟨t, -, h⟩
    · rw [h, h]
    · rw [h]
      rfl
  | _ => rfl

/-- An instant that canonical text keeps is read again. -/
theorem decoded_encoded_timestamp {t : Instant} (h : t.Settled) :
    (timestamp t).encoded.decoded = timestamp t := by
  rw [encoded, decoded, h.parse_canonical]

/-- A value that was read is read again after it has been written. -/
theorem decoded_encoded_decoded {v : Value} (h : v.Settled) :
    v.decoded.encoded.decoded = v.decoded := by
  cases v with
  | text s =>
    rcases decoded_text s with hs | ⟨t, ht, hs⟩
    · rw [hs]
      exact hs
    · rw [hs, decoded_encoded_timestamp ht]
  | timestamp t => exact decoded_encoded_timestamp h
  | _ => rfl

end Value

/-! ## Rows -/

/-- Canonical text keeps all values of the row as they are. -/
def Record.Settled (r : Record) : Prop := ∀ entry ∈ r.entries, entry.2.Settled

theorem Record.decoded_decoded (r : Record) : r.decoded.decoded = r.decoded := by
  unfold decoded OrderedMap.map
  rw [List.map_map]
  congr 1
  refine List.map_congr_left fun entry _ => ?_
  exact congrArg (Prod.mk entry.1) entry.2.decoded_decoded

theorem Record.decoded_encoded_decoded {r : Record} (h : r.Settled) :
    r.decoded.encoded.decoded = r.decoded := by
  unfold decoded encoded OrderedMap.map
  rw [List.map_map, List.map_map]
  congr 1
  refine List.map_congr_left fun entry hentry => ?_
  exact congrArg (Prod.mk entry.1) (Value.decoded_encoded_decoded (h entry hentry))

/-- An insertion has the values of its row, in the order of the columns and as they are kept. -/
theorem Statement.params_insert (table : String) (row : Record) :
    (Statement.insert table row).params = row.entries.map fun entry => entry.2.encoded := by
  have hbind : ∀ a ∈ row.entries.map (fun entry => Fragment.bind entry.2), a.WellFormed := by
    intro a ha
    obtain ⟨entry, -, rfl⟩ := List.mem_map.mp ha
    exact Fragment.wellFormed_bind entry.2
  unfold Statement.insert
  split
  next hempty =>
    rw [List.isEmpty_iff.mp hempty]
    rfl
  next =>
    dsimp only
    rw [Fragment.params_append, Fragment.params_append, Fragment.params_raw, Fragment.params_raw,
      Fragment.params_join ", " hbind, List.flatMap_map, List.nil_append, List.append_nil]
    exact List.flatMap_pure_eq_map ..

/-- The values of an insertion under the names of its row are the row as it is kept. -/
theorem Record.zip_params_insert (table : String) (row : Record) :
    row.names.zip (Statement.insert table row).params = row.encoded.entries := by
  rw [Statement.params_insert]
  exact List.zip_map'

/-! ## Accessors -/

section

variable {ρ σ : Type}

/-- The engine, as ready as it can be, answers a statement with these rows. -/
def Engine.Answers (e : Engine σ) (s : σ) (a : Fragment) (rows : List Record) : Prop :=
  let t := (e.prepare s).1
  (e.all (a.render (e.placeholder t)) a.params t).result = .ok rows

/-- Rows that an engine answers with are read without failing. -/
theorem Table.query_of_answers (t : Table ρ) {e : Engine σ} {s : σ} {a : Fragment}
    {rows : List Record} (h : e.Answers s a rows) (debug : Bool) :
    (t.query e a debug s).result = .ok (rows.map Record.decoded) := by
  have hquery : t.query e a debug = (t.request a debug).query e := rfl
  rw [hquery, Request.query_apply]
  exact congrArg (Except.map (List.map Record.decoded)) h

/-- An insertion that is answered with one row gives what its table makes of that row. -/
theorem Table.insert_of_answers (t : Table ρ) {e : Engine σ} {s : σ} {row kept : Record}
    (h : e.Answers s (Statement.insert t.name row) [kept]) :
    (t.insert e row s).result = t.decode kept.decoded := by
  have hrows : ((t.request (Statement.insert t.name row) false).query e s).result =
      .ok [kept.decoded] := t.query_of_answers h false
  rw [insert_eq, Action.bind_ofExcept_apply, hrows]
  rfl

end

/-- What is so of a row and of the row that it is read as. -/
structure Record.Rereads (r d : Record) : Prop where
  /-- The columns are the same in the same order, and texts that denote no instant are the same. -/
  columns : List.Forall₂ (fun before after => after.1 = before.1 ∧
    ∀ s, before.2 = .text s → Undated s → after.2 = .text s) r.entries d.entries
  /-- Reading the row again changes nothing. -/
  again : d.decode = .ok d
  /-- An insertion of the row that was read is one value for each column. If the engine answers with
  these values under their columns, the table is given the same row again. -/
  inserted : r.Settled → ∀ {ρ σ : Type} (t : Table ρ) (e : Engine σ) (s : σ),
    let a := Statement.insert t.name d
    a.params.length = d.size ∧
      (e.Answers s a [⟨d.names.zip a.params⟩] → (t.insert e d s).result = t.decode d)

/-- **Reading, writing and reading again is stable.** The rows of any answer are read without
failing, and each of them is such that what it is read as is read as itself, at once and also after
it has been inserted and has come back as it was handed to the engine. Instants that were not texts
must be whole seconds of years in four digits for the latter. -/
theorem Table.query_rereads {ρ σ : Type} (t : Table ρ) (e : Engine σ) (s : σ) (a : Fragment)
    (debug : Bool) {rows : List Record} (hanswer : e.Answers s a rows) :
    (t.query e a debug s).result = .ok (rows.map Record.decoded) ∧
      ∀ r ∈ rows, r.Rereads r.decoded := by
  refine ⟨t.query_of_answers hanswer debug, fun r _ => ?_⟩
  constructor
  case columns =>
    refine List.forall₂_map_right_iff.mpr (List.forall₂_same.mpr ?_)
    rintro ⟨key, v⟩ -
    refine ⟨rfl, ?_⟩
    rintro s rfl hundated
    exact Value.decoded_of_undated hundated
  case again => rw [Record.decode_eq, r.decoded_decoded]
  case inserted =>
    intro hsettled τ υ u f s'
    constructor
    · rw [Statement.params_insert, List.length_map]
      rfl
    · -- the answer is the row as it was written, and reading it gives the row that was read
      intro hecho
      rw [Record.zip_params_insert] at hecho
      rw [u.insert_of_answers hecho]
      exact congrArg u.decode (Record.decoded_encoded_decoded hsettled)

/-- A date, a text that only looks like one, a time of day and an instant. -/
def sampledVisit : Record :=
  ⟨[("day", .text "2024-02-29"), ("never", .text "0000-00-00"), ("at", .text "10:00:00"),
    ("since", .timestamp Instant.sampledLeapDay)]⟩

/-- The same row as it comes back from a store that keeps texts. -/
def sampledReturn : Record :=
  ⟨[("day", .text "2024-02-29 00:00:00"), ("never", .text "0000-00-00"), ("at", .text "10:00:00"),
    ("since", .text "2000-02-29 00:00:00")]⟩

theorem Table.query_rereads_sampled :
    let t : Table Record := ⟨"visits", {}, .ok⟩
    let a := Statement.select "visits" none (Predicate.all Filter.empty : Predicate String) {}
    let s : Recorder := ⟨.numbered, [{ rows := [sampledVisit] }], []⟩
    let d := sampledVisit.decoded
    Recorder.engine.Answers s a [sampledVisit] ∧ sampledVisit.Settled ∧
      (t.query Recorder.engine a false s).result = .ok [d] ∧ sampledVisit.Rereads d ∧
      Undated "0000-00-00" ∧ d.get? "never" = some (.text "0000-00-00") ∧
      (t.insert Recorder.engine d ⟨.numbered, [{ rows := [sampledReturn] }], []⟩).result =
        .ok d := by
  intro t a s d
  have hanswer : Recorder.engine.Answers s a [sampledVisit] := rfl
  obtain ⟨hread, hrereads⟩ := t.query_rereads Recorder.engine s a false hanswer
  have hvisit := hrereads sampledVisit List.mem_cons_self
  have hsettled : sampledVisit.Settled := by
    refine List.forall_mem_cons.mpr ⟨trivial, List.forall_mem_cons.mpr ⟨trivial,
      List.forall_mem_cons.mpr ⟨trivial, List.forall_mem_singleton.mpr ?_⟩⟩⟩
    exact ⟨by decide, by decide +kernel, by decide +kernel⟩
  have hundated : Undated "0000-00-00" :=
    .date (by decide : _ = some [0, 0, 0]) (by decide)
  have hreturn : d.names.zip (Statement.insert "visits" d).params = sampledReturn.entries := by
    decide +kernel
  refine ⟨hanswer, hsettled, hread, hvisit, hundated, by decide +kernel, ?_⟩
  refine (hvisit.inserted hsettled t Recorder.engine _).2 ?_
  rw [show (⟨d.names.zip (Statement.insert t.name d).params⟩ : Record) = sampledReturn from
    congrArg OrderedMap.mk hreturn]
  rfl

end Tabular
