import Tabular.Postgres.Server
import Tabular.Proofs.OrderedMap.Contents
import Tabular.Proofs.Postgres.Fields

/-!
# Rows decoded as a whole

A row gives a record if every one of its cells has a value, and otherwise the failure of the first
that has none.

- `Postgres.cellValue?`: the value of a cell, of whatever type.
- `Postgres.decodeRow_of_readable`: the record of a row whose cells have values.
- `Postgres.decodeRow_eq_error_iff`: the failure of any other row.
- `Postgres.Server.engine_of_executes`: what connections give for a statement is what is made of the
  exchange that it is executed in.
- `Postgres.rows_all_or_nothing`: **rows and lists of rows are decoded as a whole**, the columns of
  a record in the order in which their names come first, each with the value that comes last.
-/

namespace Tabular

namespace Postgres

/-- The types whose cells are decoded. -/
def mappedTypes : List ColumnType :=
  [.builtin .bool, .builtin .int2, .builtin .int4, .builtin .int8, .builtin .float4,
    .builtin .float8, .builtin .text, .builtin .varchar, .builtin .bpchar, .builtin .name,
    .builtin .bytea, .builtin .timestamp, .builtin .timestamptz, .builtin .date, .builtin .time,
    .builtin .json, .builtin .jsonb]

/-! ## Cells -/

/-- The value of a cell, if its bytes are of its type. -/
def cellValue? (type : ColumnType) : Option Bytes → Option Value
  | none => some .null
  | some bytes => decodeCell? type bytes

theorem decodeField_eq (index : Nat) (column : AnswerColumn) (cell : Option Bytes) :
    decodeField index column cell =
      match cellValue? column.type cell with
      | some v => .ok v
      | none => .error (.decode column.name (.cell index)) := by
  cases cell <;> rfl

/-- A cell of a type that is neither decoded nor an enumeration has its bytes for its value. -/
theorem cellValue?_unmapped {type : ColumnType} (hmapped : type ∉ mappedTypes)
    (henum : ∀ name schema, type ≠ .custom name schema true) (bytes : Bytes) :
    cellValue? type (some bytes) = some (.blob bytes) := by
  cases type with
  | builtin b =>
    cases b with
    | unknown => rfl
    | other name => rfl
    | _ => exact absurd (by decide) hmapped
  | custom name schema isEnum =>
    cases isEnum with
    | true => exact absurd rfl (henum name schema)
    | false => rfl

/-- A cell of an enumeration has its label for its value. -/
theorem cellValue?_label (name schema label : String) :
    cellValue? (.custom name schema true) (some (Text.utf8 label)) = some (.text label) := by
  simp [cellValue?, decodeCell?, Text.ofUtf8?_utf8]

/-- Bytes of an enumeration that are no text are kept. -/
theorem cellValue?_of_no_text (name schema : String) {bytes : Bytes}
    (h : ∀ s, Text.utf8 s ≠ bytes) :
    cellValue? (.custom name schema true) (some bytes) = some (.blob bytes) := by
  have hnone : Text.ofUtf8? bytes = none :=
    Option.eq_none_iff_forall_ne_some.mpr fun s hs => h s (Text.utf8_of_ofUtf8? hs)
  simp [cellValue?, decodeCell?, hnone]

/-! ## Rows -/

/-- A row, each cell with its column. -/
abbrev Row := List (AnswerColumn × Option Bytes)

namespace Row

/-- The record of the row. -/
def decode (row : Row) : Except Failure Record :=
  decodeRow (row.map Prod.fst) (row.map Prod.snd)

/-- The names of the columns. -/
def names (row : Row) : List String := row.map fun field => field.1.name

/-- Every cell has a value. -/
def Readable (row : Row) : Prop := ∀ field ∈ row, ∃ v, cellValue? field.1.type field.2 = some v

/-- The fields of a readable row. -/
def entries (row : Row) : List (String × Value) :=
  row.map fun field => (field.1.name, (cellValue? field.1.type field.2).getD .null)

/-- The cells of a readable row make its fields. -/
theorem fieldsFrom_of_readable {row : Row} (h : row.Readable) (index : Nat) :
    fieldsFrom index (row.map Prod.fst) (row.map Prod.snd) = .ok row.entries := by
  induction row generalizing index with
  | nil => rfl
  | cons field row ih =>
    obtain ⟨v, hv⟩ := h field List.mem_cons_self
    have hrest : Readable row := fun f hf => h f (List.mem_cons_of_mem field hf)
    have hentries : entries (field :: row) = (field.1.name, v) :: entries row := by
      rw [entries, List.map_cons, hv]
      rfl
    rw [List.map_cons, List.map_cons, fieldsFrom_cons, decodeField_eq, hv, ih hrest, hentries]
    rfl

/-- The first cell without a value is the failure. -/
theorem fieldsFrom_of_unreadable {before : Row} (h : before.Readable) {column : AnswerColumn}
    {cell : Option Bytes} (hcell : cellValue? column.type cell = none) (after : Row)
    (index : Nat) :
    fieldsFrom index ((before ++ (column, cell) :: after).map Prod.fst)
        ((before ++ (column, cell) :: after).map Prod.snd) =
      .error (.decode column.name (.cell (index + before.length))) := by
  induction before generalizing index with
  | nil =>
    rw [List.nil_append, List.map_cons, List.map_cons, fieldsFrom_cons, decodeField_eq, hcell]
    rfl
  | cons field before ih =>
    obtain ⟨v, hv⟩ := h field List.mem_cons_self
    have hrest : Readable before := fun f hf => h f (List.mem_cons_of_mem field hf)
    rw [List.cons_append, List.map_cons, List.map_cons, fieldsFrom_cons, decodeField_eq, hv,
      ih hrest, List.length_cons, Nat.add_right_comm index 1]
    rfl

theorem exists_first_of_not_readable {row : Row} (h : ¬ row.Readable) :
    ∃ (before : Row) (column : AnswerColumn) (cell : Option Bytes) (after : Row),
      row = before ++ (column, cell) :: after ∧ before.Readable ∧
      cellValue? column.type cell = none := by
  induction row with
  | nil => exact absurd nofun h
  | cons field row ih =>
    cases hvalue : cellValue? field.1.type field.2 with
    | none => exact ⟨[], field.1, field.2, row, rfl, nofun, hvalue⟩
    | some v =>
      have hrest : ¬ Readable row := fun hrow => h (List.forall_mem_cons.mpr ⟨⟨v, hvalue⟩, hrow⟩)
      obtain ⟨before, column, cell, after, rfl, hbefore, hcell⟩ := ih hrest
      exact ⟨field :: before, column, cell, after, rfl,
        List.forall_mem_cons.mpr ⟨⟨v, hvalue⟩, hbefore⟩, hcell⟩

/-- The record of a readable row is made of its fields. -/
theorem decode_of_readable {row : Row} (h : row.Readable) :
    row.decode = .ok (OrderedMap.ofList row.entries) := by
  rw [decode, decodeRow_eq, fields, fieldsFrom_of_readable h]
  rfl

/-- A row has no record if a cell has no value, the first of which is the failure. -/
theorem decode_eq_error_iff {row : Row} {failure : Failure} :
    row.decode = .error failure ↔
      ∃ (before : Row) (column : AnswerColumn) (cell : Option Bytes) (after : Row),
        row = before ++ (column, cell) :: after ∧ before.Readable ∧
        cellValue? column.type cell = none ∧
        failure = .decode column.name (.cell before.length) := by
  have hfails : ∀ (before : Row) (column : AnswerColumn) (cell : Option Bytes) (after : Row),
      before.Readable → cellValue? column.type cell = none →
      decode (before ++ (column, cell) :: after) =
        .error (.decode column.name (.cell before.length)) := by
    intro before column cell after hbefore hcell
    rw [decode, decodeRow_eq, fields, fieldsFrom_of_unreadable hbefore hcell, Nat.zero_add]
    rfl
  constructor
  · intro h
    by_cases hrow : row.Readable
    · rw [decode_of_readable hrow] at h
      cases h
    · obtain ⟨before, column, cell, after, rfl, hbefore, hcell⟩ :=
        exists_first_of_not_readable hrow
      rw [hfails before column cell after hbefore hcell] at h
      exact ⟨before, column, cell, after, rfl, hbefore, hcell, (Except.error.inj h).symm⟩
  · rintro ⟨before, column, cell, after, rfl, hbefore, hcell, rfl⟩
    exact hfails before column cell after hbefore hcell

/-- A record is that of a row: it has the columns in the order in which their names come first, and
for each of them the last value. -/
structure Assembled (row : Row) (r : Record) : Prop where
  nodup : r.names.Nodup
  names_eq : r.names = row.names.eraseDups
  get?_eq (before : Row) column cell (after : Row) : row = before ++ (column, cell) :: after →
    column.name ∉ after.names → r.get? column.name = cellValue? column.type cell

theorem Readable.assembled {row : Row} (h : row.Readable) :
    row.Assembled (OrderedMap.ofList row.entries) where
  nodup := OrderedMap.nodup_names_ofList row.entries
  names_eq := by
    rw [OrderedMap.names_ofList, OrderedMap.names, entries, List.map_map]
    rfl
  get?_eq before column cell after hrow hname := by
    obtain ⟨v, hv⟩ := h (column, cell) (hrow ▸ List.mem_append_right before List.mem_cons_self)
    have hentries : row.entries = before.entries ++ (column.name, v) :: after.entries := by
      rw [hrow, entries, List.map_append, List.map_cons, hv]
      rfl
    have hlast : column.name ∉ (⟨after.entries⟩ : Record).names := by
      rw [OrderedMap.names, entries, List.map_map]
      exact hname
    rw [hentries, hv]
    exact OrderedMap.get?_ofList_of_last (e := (column.name, v)) hlast

theorem exists_decode_iff {row : Row} : (∃ r, row.decode = .ok r) ↔ row.Readable := by
  constructor
  · rintro ⟨r, hr⟩
    by_contra hrow
    obtain ⟨before, column, cell, after, hsplit, hbefore, hcell⟩ :=
      exists_first_of_not_readable hrow
    have hfailure := decode_eq_error_iff.mpr
      ⟨before, column, cell, after, hsplit, hbefore, hcell, rfl⟩
    rw [hr] at hfailure
    cases hfailure
  · exact fun h => ⟨_, decode_of_readable h⟩

end Row

/-! ## Lists of rows -/

namespace Exchange

/-- Every row has one cell for each column. -/
def Even (e : Exchange) : Prop := ∀ cells ∈ e.rows, cells.length = e.columns.length

/-- The rows of an answer, each cell with its column. -/
def answered (e : Exchange) : List Row := e.rows.map fun cells => e.columns.zip cells

theorem mapM_decodeRow {columns : List AnswerColumn} {rows : List (List (Option Bytes))}
    (h : ∀ cells ∈ rows, cells.length = columns.length) :
    rows.mapM (decodeRow columns) = (rows.map fun cells => columns.zip cells).mapM Row.decode := by
  induction rows with
  | nil => rfl
  | cons cells rows ih =>
    have hlength := h cells List.mem_cons_self
    have hhead : Row.decode (columns.zip cells) = decodeRow columns cells := by
      rw [Row.decode, List.map_fst_zip (Nat.le_of_eq hlength.symm),
        List.map_snd_zip (Nat.le_of_eq hlength)]
    rw [List.map_cons, List.mapM_cons, List.mapM_cons, hhead,
      ih fun cells hcells => h cells (List.mem_cons_of_mem _ hcells)]

theorem records_eq {e : Exchange} (heven : e.Even) (hrejection : e.rejection = none) :
    e.records = e.answered.mapM Row.decode := by
  have hall : (e.rows.all fun cells => decide (cells.length = e.columns.length)) = true :=
    List.all_eq_true.mpr fun cells hcells => decide_eq_true (heven cells hcells)
  rw [records, if_pos hall, hrejection]
  exact mapM_decodeRow heven

/-- An answer of one row has the record of that row. -/
theorem records_singleton {e : Exchange} {cells : List (Option Bytes)} (hrows : e.rows = [cells])
    (hlength : cells.length = e.columns.length) (hrejection : e.rejection = none) :
    e.records = (decodeRow e.columns cells).map fun r => [r] := by
  have hall : (e.rows.all fun cells => decide (cells.length = e.columns.length)) = true := by
    rw [hrows, List.all_cons, List.all_nil, decide_eq_true hlength]
    rfl
  rw [records, if_pos hall, hrejection, hrows]
  dsimp only
  rw [List.mapM_cons, List.mapM_nil]
  cases decodeRow e.columns cells with
  | error failure => rfl
  | ok r => rfl

/-- What an answer of rows is read as: a record for each row, or the failure of the first row that
has none. -/
structure ReadAsWhole (e : Exchange) : Prop where
  ok_iff rs : e.records = .ok rs ↔ List.Forall₂ (fun row r => row.decode = .ok r) e.answered rs
  error_iff failure : e.records = .error failure ↔
    ∃ before row after, e.answered = before ++ row :: after ∧ (∀ x ∈ before, x.Readable) ∧
      row.decode = .error failure

theorem readAsWhole {e : Exchange} (heven : e.Even) (hrejection : e.rejection = none) :
    e.ReadAsWhole where
  ok_iff rs := by rw [records_eq heven hrejection, mapM_eq_ok_iff]
  error_iff failure := by
    rw [records_eq heven hrejection, mapM_eq_error_iff]
    simp only [Row.exists_decode_iff]

end Exchange

/-! ## Statements on their way -/

namespace Server

/-- What the server does with the next statement. -/
def next (s : Server) : Exchange := s.exchanges.headD {}

/-- The server after a statement that got as far as these parameters. -/
def after (s : Server) (text : String) (bound : Option (List (Option Bytes))) : Server :=
  { s with exchanges := s.exchanges.tail, received := s.received ++ [⟨text, bound⟩] }

/-- The next statement is executed with these parameters: it can be sent, the connection is up and
stays so, and neither the text nor a parameter is refused. -/
structure Executes (s : Server) (text : String) (params : List Value)
    (bound : List (Option Bytes)) : Prop where
  sendable : '\x00' ∉ text.toList
  up : ¬ s.closed = true
  stays : ¬ s.next.drop = true
  prepared : s.next.prepareRejection = none
  bindAll_eq : bindAll params s.next.parameters = .ok bound

variable {s : Server} {text : String} {params : List Value}

/-- A statement that reaches the server is answered. -/
theorem execute_of_sent {α : Type} (hsendable : '\x00' ∉ text.toList) (hup : ¬ s.closed = true)
    (hstays : ¬ s.next.drop = true) (read : Exchange → Except Failure α) :
    execute read text params s =
      ⟨(answer read s.next params).1, s.after text (answer read s.next params).2, []⟩ := by
  unfold execute
  rw [if_neg hsendable, if_neg hup]
  exact if_neg hstays

/-- A statement is executed, or fails with no regard to what is read of its exchange. -/
theorem executes_or_fails (s : Server) (text : String) (params : List Value) :
    (∃ bound, s.Executes text params bound) ∨
      ∃ failure, ∀ {α : Type} (read : Exchange → Except Failure α),
        (execute read text params s).result = .error failure := by
  by_cases hsendable : '\x00' ∈ text.toList
  · refine .inr ⟨.query .encoding, fun read => ?_⟩
    rw [execute, if_pos hsendable]
  by_cases hup : s.closed = true
  · refine .inr ⟨.query .closed, fun read => ?_⟩
    rw [execute, if_neg hsendable, if_pos hup]
  by_cases hstays : s.next.drop = true
  · refine .inr ⟨.query .closed, fun read => ?_⟩
    rw [execute, if_neg hsendable, if_neg hup]
    exact congrArg Outcome.result (if_pos hstays)
  cases hprepared : s.next.prepareRejection with
  | some r =>
    refine .inr ⟨r.failure, fun read => ?_⟩
    rw [execute_of_sent hsendable hup hstays, answer, hprepared]
  | none =>
    cases hbound : bindAll params s.next.parameters with
    | error failure =>
      refine .inr ⟨failure, fun read => ?_⟩
      rw [execute_of_sent hsendable hup hstays, answer, hprepared]
      dsimp only
      rw [hbound]
    | ok bound => exact .inl ⟨bound, hsendable, hup, hstays, hprepared, hbound⟩

theorem execute_of_executes {α : Type} {bound : List (Option Bytes)}
    (h : s.Executes text params bound) (read : Exchange → Except Failure α) :
    execute read text params s = ⟨read s.next, s.after text (some bound), []⟩ := by
  rw [execute_of_sent h.sendable h.up h.stays, answer, h.prepared]
  dsimp only
  rw [h.bindAll_eq]

/-- **An executed statement is answered with what is made of its exchange**, the number of changes
or the records. -/
theorem engine_of_executes {bound : List (Option Bytes)} (h : s.Executes text params bound) :
    engine.run text params s = ⟨s.next.changes, s.after text (some bound), []⟩ ∧
      engine.all text params s = ⟨s.next.records, s.after text (some bound), []⟩ :=
  ⟨execute_of_executes h Exchange.changes, execute_of_executes h Exchange.records⟩

/-- Any other statement fails, whatever was asked for. -/
theorem engine_of_not_executes (h : ∀ bound, ¬ s.Executes text params bound) :
    ∃ failure, (engine.run text params s).result = .error failure ∧
      (engine.all text params s).result = .error failure := by
  rcases s.executes_or_fails text params with ⟨bound, hbound⟩ | ⟨failure, hfails⟩
  · exact absurd hbound (h bound)
  · exact ⟨failure, hfails Exchange.changes, hfails Exchange.records⟩

end Server

/-- What the cells of types without a decoding of their own have for values. -/
structure CellsKept : Prop where
  null type : cellValue? type none = some .null
  bytes {type} : type ∉ mappedTypes → (∀ name schema, type ≠ .custom name schema true) →
    ∀ bytes, cellValue? type (some bytes) = some (.blob bytes)
  label name schema s : cellValue? (.custom name schema true) (some (Text.utf8 s)) = some (.text s)
  /-- Bytes of an enumeration that are no text. -/
  noText name schema {bytes} : (∀ s, Text.utf8 s ≠ bytes) →
    cellValue? (.custom name schema true) (some bytes) = some (.blob bytes)

theorem cellsKept : CellsKept where
  null _ := rfl
  bytes := cellValue?_unmapped
  label := cellValue?_label
  noText := cellValue?_of_no_text

/-- **Rows and lists of rows are decoded as a whole.** If every cell of a row has a value, the row
has a record, in which columns come in the order of their first cells with the values of their last
ones. Otherwise the first cell without a value is the failure, whatever comes after it. The first
row without a record is the failure of a list of rows. -/
theorem rows_all_or_nothing :
    CellsKept ∧
    (∀ row : Row, row.Readable → ∃ r, row.decode = .ok r ∧ row.Assembled r) ∧
    (∀ (row : Row) failure, row.decode = .error failure ↔
      ∃ (before : Row) (column : AnswerColumn) (cell : Option Bytes) (after : Row),
        row = before ++ (column, cell) :: after ∧ before.Readable ∧
        cellValue? column.type cell = none ∧
        failure = .decode column.name (.cell before.length)) ∧
    ∀ e : Exchange, e.Even → e.rejection = none → e.ReadAsWhole :=
  ⟨cellsKept, fun _ h => ⟨_, Row.decode_of_readable h, h.assembled⟩,
    fun _ _ => Row.decode_eq_error_iff, fun _ => Exchange.readAsWhole⟩

/-- Two columns of one name, an enumeration between them, and a type without a value form. -/
def sampledColumns : List AnswerColumn :=
  [⟨"a", .builtin .int2⟩, ⟨"mood", .custom "mood" "public" true⟩, ⟨"a", .builtin .text⟩,
    ⟨"id", .builtin (.other "uuid")⟩]

/-- A row of these columns: the enumeration has no text, and the second value of the name is
null. -/
def sampledRow : Row :=
  sampledColumns.zip [some [0, 5], some [0xFF], none, some [0x12, 0x34]]

/-- A row of which the first cell has too few bytes. -/
def sampledUnreadable : Row := sampledColumns.zip [some [5], none, some [0x78], none]

/-- The answer with both rows. -/
def sampledAnswer : Exchange where
  columns := sampledColumns
  rows := [[some [0, 5], some [0xFF], none, some [0x12, 0x34]], [some [5], none, some [0x78], none]]

theorem rows_all_or_nothing_sampled :
    sampledRow.Readable ∧
    (∃ r, sampledRow.decode = .ok r ∧ r.names = ["a", "mood", "id"] ∧ r.get? "a" = some .null ∧
      r.get? "id" = some (.blob [0x12, 0x34])) ∧
    cellValue? (.custom "mood" "public" true) (some [0xFF]) = some (.blob [0xFF]) ∧
    sampledUnreadable.decode = .error (.decode "a" (.cell 0)) ∧
    sampledAnswer.Even ∧ sampledAnswer.rejection = none ∧
    sampledAnswer.records = .error (.decode "a" (.cell 0)) := by
  obtain ⟨hcells, hreadable, hfails, hanswer⟩ := rows_all_or_nothing
  have hbyte : ∀ s, Text.utf8 s ≠ [0xFF] := fun s hs => by
    have htext : Text.ofUtf8? [0xFF] = some s := hs ▸ Text.ofUtf8?_utf8 s
    have hnone : Text.ofUtf8? [0xFF] = none := by decide +kernel
    exact nomatch hnone.symm.trans htext
  have hmood := hcells.noText "mood" "public" hbyte
  have hid : cellValue? (.builtin (.other "uuid")) (some [0x12, 0x34]) =
      some (.blob [0x12, 0x34]) := hcells.bytes (by decide) (by simp) _
  have hint : cellValue? (.builtin .int2) (some [0, 5]) = some (.integer 5) := by
    decide +kernel
  have hrow : sampledRow.Readable :=
    List.forall_mem_cons.mpr ⟨⟨_, hint⟩, List.forall_mem_cons.mpr ⟨⟨_, hmood⟩,
      List.forall_mem_cons.mpr ⟨⟨_, hcells.null _⟩, List.forall_mem_cons.mpr ⟨⟨_, hid⟩, nofun⟩⟩⟩⟩
  have hunreadable : sampledUnreadable.decode = .error (.decode "a" (.cell 0)) :=
    (hfails _ _).mpr ⟨[], _, _, _, rfl, nofun, by decide, rfl⟩
  have heven : sampledAnswer.Even :=
    show ∀ cells ∈ sampledAnswer.rows, cells.length = sampledAnswer.columns.length by decide
  obtain ⟨r, hr, hassembled⟩ := hreadable sampledRow hrow
  refine ⟨hrow, ⟨r, hr, hassembled.names_eq, ?_, ?_⟩, hmood, hunreadable, heven, rfl, ?_⟩
  · exact hassembled.get?_eq (sampledRow.take 2) _ _ _ rfl (by decide)
  · exact (hassembled.get?_eq (sampledRow.take 3) _ _ [] rfl nofun).trans hid
  · refine ((hanswer sampledAnswer heven rfl).error_iff _).mpr
      ⟨[sampledRow], sampledUnreadable, [], rfl, ?_, hunreadable⟩
    exact List.forall_mem_cons.mpr ⟨hrow, nofun⟩

end Postgres

end Tabular
