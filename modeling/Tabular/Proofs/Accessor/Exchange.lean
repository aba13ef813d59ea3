import Tabular.Proofs.Accessor.Opening
import Tabular.Proofs.OrderedMap.Contents

/-!
# Exchanges

What passes between accessors and engines, one statement at a time, and what is logged on the way.

- `Exchange`: a statement with what its engine said before and after it.
- `Reporter`: how the statements of a call are logged.
- `Account`: what an outcome adds to the record of an engine and to the log, exchange by exchange.
- `Exchange.Explains`: the reasons for which a call may fail after an exchange.
- `Call.accounted`: **all that a call does is accounted for by its exchanges, and when it fails the
  last of them explains it.**
- `Call.account`: the account of any call, also of one that is refused.
-/

namespace Tabular

/-! ## Exchanges and their log -/

/-- What a statement is answered. -/
inductive Answer where
  | rows (result : Except Failure (List Record))
  | changes (result : Except Failure Nat)

/-- The failure that is answered. -/
def Answer.failure? : Answer → Option Failure
  | rows (.error failure) | changes (.error failure) => some failure
  | _ => none

/-- The answer as an engine tells it. -/
def Answer.told (events : List Event) : Answer → Told
  | rows result => .answered result events
  | changes result => .changed result events

/-- A statement that is attempted: the placeholders that the engine asks for and its events until
then, the statement as it is handed over, and the answer with the events until then. -/
structure Exchange where
  style : Placeholder
  before : List Event
  delivery : Delivery
  answer : Answer
  after : List Event

/-- What the engine tells in an exchange. -/
def Exchange.told (x : Exchange) : List Told :=
  [.prepared x.style x.before, x.answer.told x.after]

/-- How the statements of a call are logged. -/
structure Reporter where
  table : String
  settings : TableSettings
  debug : Bool

/-- The event of a statement: its text, as much of it as is wanted, and how many parameters it
has. -/
def Reporter.event (p : Reporter) (d : Delivery) : Event :=
  .statement p.settings.level p.table d.params.length (p.settings.logged d.text)

/-- What is logged of a statement: nothing if logging is asked for by neither the table nor the
call. -/
def Reporter.report (p : Reporter) (d : Delivery) : List Event :=
  if p.debug || p.settings.logStatements then [p.event d] else []

/-- All events of an exchange in order: a statement is logged once its engine is as ready as it can
be, and before the engine has it. -/
def Exchange.log (p : Reporter) (x : Exchange) : List Event :=
  x.before ++ (p.report x.delivery ++ x.after)

/-- How a table logs the statements of a call. -/
def Table.reporter {ρ : Type} (t : Table ρ) (debug : Bool) : Reporter := ⟨t.name, t.settings, debug⟩

/-- How a request is logged. -/
def Request.reporter (r : Request) : Reporter := ⟨r.table, r.settings, r.debug⟩

/-! ## Accounts -/

section

variable {σ α β : Type}

/-- An outcome accounted for by exchanges: they are what it adds to the record of the engine, their
statements are the first ones of these, and what is logged are their events and then the closing
ones. -/
structure Account (as : List Fragment) (p : Reporter) (w : Watched σ) (o : Outcome (Watched σ) α)
    (xs : List Exchange) (closing : List Event) : Prop where
  told_eq : o.state.told = w.told ++ xs.flatMap Exchange.told
  sent_eq : o.state.sent = w.sent ++ xs.map Exchange.delivery
  statements : List.Forall₂ (fun x a => x.delivery = a.delivery x.style) xs (as.take xs.length)
  events_eq : o.events = xs.flatMap (Exchange.log p) ++ closing

namespace Account

variable {a : Fragment} {as : List Fragment} {p : Reporter} {w : Watched σ}
  {o : Outcome (Watched σ) α} {x : Exchange} {xs : List Exchange} {closing : List Event}

/-- Nothing done is accounted for by no exchange. -/
theorem nil (r : Except Failure α) : Account as p w ⟨r, w, []⟩ [] [] where
  told_eq := (List.append_nil _).symm
  sent_eq := (List.append_nil _).symm
  statements := .nil
  events_eq := rfl

/-- What an account says of an outcome does not depend on its result. -/
theorem congr {o' : Outcome (Watched σ) β} (h : Account as p w o xs closing)
    (hstate : o'.state = o.state) (hevents : o'.events = o.events) :
    Account as p w o' xs closing where
  told_eq := hstate ▸ h.told_eq
  sent_eq := hstate ▸ h.sent_eq
  statements := h.statements
  events_eq := hevents ▸ h.events_eq

/-- More events at the end are closing events. -/
theorem close {o' : Outcome (Watched σ) β} (h : Account as p w o xs closing) (es : List Event)
    (hstate : o'.state = o.state) (hevents : o'.events = o.events ++ es) :
    Account as p w o' xs (closing ++ es) where
  told_eq := hstate ▸ h.told_eq
  sent_eq := hstate ▸ h.sent_eq
  statements := h.statements
  events_eq := by rw [hevents, h.events_eq, List.append_assoc]

/-- The account of one exchange and then that of others. -/
theorem cons {o₁ : Outcome (Watched σ) α} {o₂ : Outcome (Watched σ) β} {o : Outcome (Watched σ) β}
    (h₁ : Account [a] p w o₁ [x] []) (h₂ : Account as p o₁.state o₂ xs closing)
    (hstate : o.state = o₂.state) (hevents : o.events = o₁.events ++ o₂.events) :
    Account (a :: as) p w o (x :: xs) closing where
  told_eq := by
    rw [hstate, h₂.told_eq, h₁.told_eq, List.flatMap_singleton, List.flatMap_cons,
      List.append_assoc]
  sent_eq := by
    rw [hstate, h₂.sent_eq, h₁.sent_eq, List.map_singleton, List.map_cons, List.append_assoc,
      List.singleton_append]
  statements := by
    cases h₁.statements with
    | cons hfirst _ => exact .cons hfirst h₂.statements
  events_eq := by
    rw [hevents, h₁.events_eq, h₂.events_eq, List.append_nil, List.flatMap_singleton,
      List.flatMap_cons, List.append_assoc]

/-- One exchange is the first of several statements. -/
theorem head (h : Account [a] p w o [x] closing) : Account (a :: as) p w o [x] closing where
  told_eq := h.told_eq
  sent_eq := h.sent_eq
  statements := h.statements
  events_eq := h.events_eq

end Account

/-! ## Accounts of requests -/

/-- What is made of a result succeeds or fails in the same state and adds no event. -/
theorem Action.bind_ofExcept_apply (x : Action σ α) (f : α → Except Failure β) (s : σ) :
    (x >>= fun a => Action.ofExcept (f a)) s =
      ⟨(x s).result.bind f, (x s).state, (x s).events⟩ := by
  rw [Request.bind_apply]
  rcases x s with ⟨_ | a, t, es⟩
  · rfl
  · simp [Action.ofExcept, Except.bind]

namespace Request

/-- The exchange that a request comes to if the engine is asked by `ask`. -/
def exchanged (r : Request) (e : Engine σ) (ask : String → List Value → Action σ α)
    (answer : Except Failure α → Answer) (s : σ) : Exchange :=
  let t := (e.prepare s).1
  let style := e.placeholder t
  let outcome := ask (r.statement.render style) r.statement.params t
  ⟨style, (e.prepare s).2, r.statement.delivery style, answer outcome.result, outcome.events⟩

theorem account_exchange (r : Request) (debug : Bool) (e : Engine σ)
    (ask : String → List Value → Action σ α) (answer : Except Failure α → Answer)
    (w : Watched σ) :
    Account [r.statement] ⟨r.table, r.settings, debug⟩ w
      (r.exchange debug e ask (fun result es => (answer result).told es) w)
      [r.exchanged e ask answer w.inner] [] where
  told_eq := by
    rw [List.flatMap_singleton]
    rfl
  sent_eq := rfl
  statements := .cons rfl .nil
  events_eq := by
    rw [List.flatMap_singleton, List.append_nil]
    rfl

/-- A request for rows is one exchange, in which rows are answered. -/
theorem account_query (r : Request) (e : Engine σ) (w : Watched σ) :
    ∃ x answer, Account [r.statement] r.reporter w (r.query e.watched w) [x] [] ∧
      x.answer = .rows answer ∧
      (r.query e.watched w).result = answer.map (List.map Record.decoded) := by
  have hquery : r.query e.watched w =
      (r.exchange r.debug e e.all .answered >>= fun rows =>
        Action.ofExcept (.ok (rows.map Record.decoded))) w :=
    congrFun (r.query_watched e) w
  rw [Action.bind_ofExcept_apply] at hquery
  rw [hquery]
  exact ⟨_, _, (r.account_exchange r.debug e e.all .rows w).congr rfl rfl, rfl, rfl⟩

/-- A request for changes is one exchange, in which changes are answered. -/
theorem account_execute (r : Request) (hdebug : r.debug = false) (e : Engine σ) (w : Watched σ) :
    ∃ x answer, Account [r.statement] r.reporter w (r.execute e.watched w) [x] [] ∧
      x.answer = .changes answer ∧ (r.execute e.watched w).result = answer := by
  rw [r.execute_watched, reporter, hdebug]
  exact ⟨_, _, r.account_exchange false e e.run .changes w, rfl, rfl⟩

end Request

/-! ## Batches row by row -/

section

variable {ρ : Type} {t : Table ρ} {e : Engine σ} {total index : Nat} {row : Record}
  {rows : List Record} {s : σ}

/-- A row that fails ends its batch, is reported, and leaves things as inserting it does. -/
theorem Table.insertFrom_of_error {failure : Failure}
    (h : (t.insert e row s).result = .error failure) :
    t.insertFrom e total index (row :: rows) s =
      ⟨.error failure, (t.insert e row s).state,
        (t.insert e row s).events ++ [.batchStopped t.name index total failure]⟩ := by
  show Action.bind (Action.handle (t.insert e row) _) _ s = _
  unfold Action.bind Action.handle
  rcases hrow : t.insert e row s with ⟨_ | kept, u, es⟩
  · rw [hrow] at h
    cases h
    rfl
  · rw [hrow] at h
    cases h

/-- After a row that goes in the batch goes on with the next. -/
theorem Table.insertFrom_of_ok {kept : ρ} (h : (t.insert e row s).result = .ok kept) :
    t.insertFrom e total index (row :: rows) s =
      let rest := t.insertFrom e total (index + 1) rows (t.insert e row s).state
      ⟨rest.result.map (kept :: ·), rest.state, (t.insert e row s).events ++ rest.events⟩ := by
  have hrest := Action.bind_ofExcept_apply (t.insertFrom e total (index + 1) rows)
    (fun rest => .ok (kept :: rest)) (t.insert e row s).state
  show Action.bind (Action.handle (t.insert e row) _) _ s = _
  unfold Action.bind Action.handle
  rcases hrow : t.insert e row s with ⟨_ | _, u, es⟩
  · rw [hrow] at h
    cases h
  · rw [hrow] at h hrest
    cases h
    dsimp only
    exact congrArg (fun o : Outcome σ (List ρ) => Outcome.mk o.result o.state (es ++ o.events))
      hrest

end

end

/-! ## Why calls fail -/

namespace Call

/-- The decoder that the call reads rows by fails so on this row. -/
def Rejects : {α : Type} → Call α → Record → Failure → Prop
  | _, selectAs _ decode _ _, row, failure | _, selectOneAs _ decode _ _, row, failure
  | _, joinAs _ decode _ _, row, failure | _, joinOneAs _ decode _ _, row, failure =>
    decode row = .error failure
  | _, insert t _, row, failure | _, insertMany t _, row, failure => t.decode row = .error failure
  | _, count .., _, _ | _, update .., _, _ | _, delete .., _, _ => False

/-- The call itself fails so on rows that it cannot make its result of: an insertion that is
answered with no row, a count that is no integer. -/
def Objects : {α : Type} → Call α → Failure → Prop
  | _, insert t _, failure | _, insertMany t _, failure =>
    failure = .storage (.noRowReturned t.name)
  | _, count .., failure => ∃ fault, failure = .decode "count" fault
  | _, _, _ => False

/-- What a call reports after so many exchanges if it ends like this: that a batch stopped at the
row of the last one. -/
def warning : {α : Type} → Call α → Nat → Except Failure α → List Event
  | _, insertMany t rows, index + 1, .error failure =>
    [.batchStopped t.name index rows.length failure]
  | _, _, _, _ => []

/-- How the statements of a call are logged; only selections and counts can ask for it. -/
def reporter : {α : Type} → Call α → Reporter
  | _, selectAs t _ _ q | _, selectOneAs t _ _ q | _, count t _ q => t.reporter q.debug
  | _, insert t _ | _, insertMany t _ | _, update t _ _ | _, delete t _ => t.reporter false
  | _, joinAs j _ _ q | _, joinOneAs j _ _ q => j.primary.reporter q.debug

end Call

/-- An exchange explains the failure of its call: it is what the engine answered, or the decoder of
the caller fails so on a row of the answer, or the call can make no result of the rows. -/
def Exchange.Explains {α : Type} (x : Exchange) (c : Call α) (failure : Failure) : Prop :=
  x.answer.failure? = some failure ∨
    (∃ rows, x.answer = .rows (.ok rows) ∧ ∃ row ∈ rows, c.Rejects row.decoded failure) ∨
    c.Objects failure

/-- Rows that are not all read by a decoder have one among them that it fails on. -/
theorem exists_of_mapM_error {α β : Type} {decode : α → Except Failure β} {rows : List α}
    {failure : Failure} (h : rows.mapM decode = .error failure) :
    ∃ row ∈ rows, decode row = .error failure := by
  obtain ⟨before, row, after, rfl, -, hrow⟩ := mapM_eq_error_iff.mp h
  exact ⟨row, List.mem_append_right before List.mem_cons_self, hrow⟩

/-! ## What is made of rows -/

/-- The first of rows that are all read. -/
def firstOf {α : Type} (decode : Record → Except Failure α) (rows : List Record) :
    Except Failure (Option α) :=
  (rows.mapM decode).map List.head?

/-- The row that an insertion gives. -/
def Table.kept {ρ : Type} (t : Table ρ) (rows : List Record) : Except Failure ρ :=
  match rows.getLast? with
  | some row => t.decode row
  | none => .error (.storage (.noRowReturned t.name))

/-- The number that a count gives. -/
def counted : List Record → Except Failure Int64
  | [] => .ok 0
  | row :: _ => row.getAs Int64 "count"

namespace Table

variable {κ ρ σ α : Type} [Named κ] {t : Table ρ} {e : Engine σ}

theorem fetchOne_eq {join : Option JoinClause} {decode : Record → Except Failure α}
    {p : Predicate κ} {q : Query κ} (h : q.misuse = none) :
    t.fetchOne e join decode p q =
      (t.request (Statement.select t.name join p q.limited) q.debug).query e >>= fun rows =>
        Action.ofExcept (firstOf decode rows) := by
  have hfetch : t.fetch e join decode p q.limited =
      (t.request (Statement.select t.name join p q.limited) q.debug).query e >>= fun rows =>
        Action.ofExcept (rows.mapM decode) := rfl
  rw [fetchOne_of_limit h, hfetch, bind_assoc]
  congr 1
  funext rows s
  unfold firstOf
  cases rows.mapM decode with
  | error failure => rfl
  | ok rows => rfl

theorem insert_eq (row : Record) :
    t.insert e row = (t.request (Statement.insert t.name row) false).query e >>= fun rows =>
      Action.ofExcept (t.kept rows) := by
  show (_ >>= fun rows => _) = _
  congr 1
  funext rows
  unfold kept
  cases rows.getLast? with
  | none => rfl
  | some row => rfl

theorem count_eq {p : Predicate κ} {q : Query κ} :
    t.count e p q = (t.request (Statement.count t.name p) q.debug).query e >>= fun rows =>
      Action.ofExcept (counted rows) := by
  show (_ >>= fun rows => _) = _
  congr 1
  funext rows
  cases rows with
  | nil => rfl
  | cons row rows => rfl

theorem kept_error {rows : List Record} {failure : Failure} (h : t.kept rows = .error failure) :
    (∃ row ∈ rows, t.decode row = .error failure) ∨
      failure = .storage (.noRowReturned t.name) := by
  unfold kept at h
  cases hlast : rows.getLast? with
  | none =>
    rw [hlast] at h
    cases h
    exact .inr rfl
  | some row =>
    rw [hlast] at h
    exact .inl ⟨row, List.mem_of_getLast? hlast, h⟩

end Table

theorem firstOf_error {α : Type} {decode : Record → Except Failure α} {rows : List Record}
    {failure : Failure} (h : firstOf decode rows = .error failure) :
    ∃ row ∈ rows, decode row = .error failure := by
  unfold firstOf at h
  cases hrows : rows.mapM decode with
  | ok read =>
    rw [hrows] at h
    cases h
  | error failure' =>
    rw [hrows] at h
    cases h
    exact exists_of_mapM_error hrows

theorem counted_error {rows : List Record} {failure : Failure}
    (h : counted rows = .error failure) : ∃ fault, failure = .decode "count" fault := by
  cases rows with
  | nil => cases h
  | cons row rows =>
    have hexpect : expect .integer Value.integer? "count" ((row.get? "count").getD .null) =
        .error failure := h
    unfold expect at hexpect
    split at hexpect
    · cases hexpect
    · cases hexpect
      exact ⟨_, rfl⟩

/-! ## Accounts of calls -/

/-- The exchanges account for what a call does, and if it fails the last of them explains it. -/
structure Call.Accounted {σ α : Type} (c : Call α) (w : Watched σ) (o : Outcome (Watched σ) α)
    (xs : List Exchange) : Prop where
  account : Account (c.statements.map Prod.fst) c.reporter w o xs (c.warning xs.length o.result)
  explained : ∀ failure, o.result = .error failure →
    ∃ x, xs.getLast? = some x ∧ x.Explains c failure

/-- One exchange accounts for an outcome, and explains its failure. -/
structure Exchange.Accounts {σ α : Type} (x : Exchange) (r : Request) (c : Call α) (w : Watched σ)
    (o : Outcome (Watched σ) α) : Prop where
  account : Account [r.statement] r.reporter w o [x] []
  explained : ∀ failure, o.result = .error failure → x.Explains c failure

namespace Call

variable {ρ σ α : Type} {c : Call α} {r : Request}

/-- The call asks for rows and makes its result of them. -/
theorem accounts_query (e : Engine σ) (w : Watched σ) {finish : List Record → Except Failure α}
    (hfinish : ∀ {rows failure}, finish rows = .error failure →
      (∃ row ∈ rows, c.Rejects row failure) ∨ c.Objects failure) :
    ∃ x : Exchange, x.Accounts r c w
      ((r.query e.watched >>= fun rows => Action.ofExcept (finish rows)) w) := by
  obtain ⟨x, answer, haccount, hanswer, hresult⟩ := r.account_query e w
  rw [Action.bind_ofExcept_apply, hresult]
  refine ⟨x, haccount.congr rfl rfl, ?_⟩
  intro failure hfails
  cases answer with
  | error failure' =>
    cases hfails
    exact .inl (by rw [hanswer, Answer.failure?])
  | ok rows =>
    rcases hfinish hfails with ⟨row, hmem, hrejects⟩ | hobjects
    · obtain ⟨raw, hraw, rfl⟩ := List.mem_map.mp hmem
      exact .inr (.inl ⟨rows, hanswer, raw, hraw, hrejects⟩)
    · exact .inr (.inr hobjects)

/-- The call asks for changes and makes its result of their number. -/
theorem accounts_execute (hdebug : r.debug = false) (e : Engine σ) (w : Watched σ)
    (finish : Nat → α) :
    ∃ x : Exchange, x.Accounts r c w
      ((r.execute e.watched >>= fun n => Action.ofExcept (.ok (finish n))) w) := by
  obtain ⟨x, answer, haccount, hanswer, hresult⟩ := r.account_execute hdebug e w
  rw [Action.bind_ofExcept_apply, hresult]
  refine ⟨x, haccount.congr rfl rfl, ?_⟩
  intro failure hfails
  cases answer with
  | error failure' =>
    cases hfails
    exact .inl (by rw [hanswer, Answer.failure?])
  | ok n => cases hfails

/-- A call that comes to one exchange and can report no warning. -/
theorem accounted_single {w : Watched σ} {o : Outcome (Watched σ) α}
    (h : ∃ x : Exchange, x.Accounts r c w o)
    (hstatement : c.statements.map Prod.fst = [r.statement]) (hreporter : c.reporter = r.reporter)
    (hwarning : ∀ n result, c.warning n result = []) :
    ∃ xs, c.Accounted w o xs ∧ (c.statements ≠ [] → xs ≠ []) := by
  obtain ⟨x, haccount, hexplained⟩ := h
  refine ⟨[x], ⟨?_, fun failure hfails => ⟨x, rfl, hexplained failure hfails⟩⟩, nofun⟩
  rw [hstatement, hreporter, hwarning]
  exact haccount

theorem accounts_insert (t : Table ρ) (e : Engine σ) (row : Record) (w : Watched σ) :
    ∃ x : Exchange, x.Accounts (t.request (Statement.insert t.name row) false) (insert t row) w
      (t.insert e.watched row w) := by
  rw [Table.insert_eq]
  exact accounts_query e w Table.kept_error

/-- Nothing is reported of a call that comes to no exchange. -/
theorem warning_zero (c : Call α) (result : Except Failure α) : c.warning 0 result = [] := by
  cases c with
  | insertMany t rows => rfl
  | _ => rfl

/-- Only failures are reported. -/
theorem warning_ok (c : Call α) (n : Nat) (a : α) : c.warning n (.ok a) = [] := by
  cases c with
  | insertMany t rows => cases n <;> rfl
  | _ => rfl

end Call

/-- The exchanges account for what a batch does from this row on: one for each row, or else as many
as there are rows up to one that fails, which is reported. -/
theorem Table.accounted_insertFrom {ρ σ : Type} (t : Table ρ) (e : Engine σ) (batch : List Record)
    (rows : List Record) : ∀ (index : Nat) (w : Watched σ), ∃ xs closing,
      Account (rows.map (Statement.insert t.name)) (t.reporter false) w
        (t.insertFrom e.watched batch.length index rows w) xs closing ∧
      ((∃ kept, (t.insertFrom e.watched batch.length index rows w).result = .ok kept ∧
          xs.length = rows.length ∧ closing = []) ∨
        ∃ failure init x, (t.insertFrom e.watched batch.length index rows w).result =
            .error failure ∧
          xs = init ++ [x] ∧ x.Explains (.insertMany t batch) failure ∧
          closing = [.batchStopped t.name (index + init.length) batch.length failure]) := by
  induction rows with
  | nil => exact fun _ _ => ⟨[], [], .nil _, .inl ⟨[], rfl, rfl, rfl⟩⟩
  | cons row rows ih =>
    intro index w
    obtain ⟨x, haccount, hexplained⟩ := Call.accounts_insert t e row w
    cases hrow : (t.insert e.watched row w).result with
    | error failure =>
      rw [insertFrom_of_error hrow]
      exact ⟨[x], _, haccount.head.close [.batchStopped t.name index batch.length failure] rfl rfl,
        .inr ⟨failure, [], x, rfl, rfl, hexplained failure hrow, rfl⟩⟩
    | ok kept =>
      rw [insertFrom_of_ok hrow]
      obtain ⟨xs, closing, hrest, hend⟩ := ih (index + 1) (t.insert e.watched row w).state
      refine ⟨x :: xs, closing, haccount.cons hrest rfl rfl, ?_⟩
      rcases hend with ⟨rest, hresult, hlength, hclosing⟩ |
        ⟨failure, init, last, hresult, rfl, hlast, hclosing⟩
      · refine .inl ⟨kept :: rest, ?_, ?_, hclosing⟩
        · dsimp only
          rw [hresult]
          rfl
        · rw [List.length_cons, hlength, List.length_cons]
      · refine .inr ⟨failure, x :: init, last, ?_, rfl, hlast, ?_⟩
        · dsimp only
          rw [hresult]
          rfl
        · rw [hclosing, List.length_cons, Nat.add_right_comm, Nat.add_assoc]

/-- **All that a call does is accounted for by its exchanges**, of which there is at least one if
it is not refused and has a statement. If the call fails, the last of them explains it. -/
theorem Call.accounted {σ α : Type} {c : Call α} (hrefusal : c.refusal = none) (e : Engine σ)
    (w : Watched σ) :
    ∃ xs, c.Accounted w (c.perform e.watched w) xs ∧ (c.statements ≠ [] → xs ≠ []) := by
  cases c with
  | selectAs t decode p q =>
    exact accounted_single (r := t.request (Statement.select t.name none p q) q.debug)
      (accounts_query e w fun h => .inl (exists_of_mapM_error h)) rfl rfl fun _ _ => rfl
  | selectOneAs t decode p q =>
    have hperform : (selectOneAs t decode p q).perform e.watched = _ := Table.fetchOne_eq hrefusal
    rw [hperform]
    exact accounted_single (accounts_query e w fun h => .inl (firstOf_error h)) rfl rfl
      fun _ _ => rfl
  | count t p q =>
    have hperform : (count t p q).perform e.watched = _ := Table.count_eq
    rw [hperform]
    exact accounted_single (accounts_query e w fun h => .inr (counted_error h)) rfl rfl
      fun _ _ => rfl
  | insert t row => exact accounted_single (accounts_insert t e row w) rfl rfl fun _ _ => rfl
  | insertMany t rows =>
    have hperform : (insertMany t rows).perform e.watched = _ := Table.insertMany_of_limit hrefusal
    have hstatements : (insertMany t rows).statements.map Prod.fst =
        rows.map (Statement.insert t.name) := by
      simp [statements, Function.comp_def]
    rw [hperform]
    obtain ⟨xs, closing, haccount, hend⟩ := t.accounted_insertFrom e rows rows 0 w
    rw [← hstatements] at haccount
    rcases hend with ⟨kept, hresult, hlength, rfl⟩ | ⟨failure, init, x, hresult, rfl, hx, rfl⟩
    · refine ⟨xs, ⟨?_, ?_⟩, ?_⟩
      · rw [hresult, warning_ok]
        exact haccount
      · intro failure hfails
        rw [hresult] at hfails
        cases hfails
      · intro hrows hnil
        have hempty : rows = [] := List.eq_nil_of_length_eq_zero (hlength ▸ hnil ▸ rfl)
        exact hrows (hempty ▸ rfl)
    · refine ⟨init ++ [x], ⟨?_, ?_⟩, fun _ => by simp⟩
      · rw [hresult, List.length_append]
        rw [Nat.zero_add] at haccount
        exact haccount
      · intro failure' hfails
        rw [hresult] at hfails
        cases hfails
        exact ⟨x, List.getLast?_concat, hx⟩
  | update t m p =>
    cases hm : m.clause with
    | error failure =>
      rw [refusal, hm] at hrefusal
      cases hrefusal
    | ok a =>
      have hperform : (update t m p).perform e.watched =
          (t.request (Statement.update t.name a p) false).execute e.watched >>= fun n =>
            Action.ofExcept (.ok n) := by
        refine (Table.update_of_ok hm).trans ?_
        exact (bind_pure _).symm
      have hstatements : (update t m p).statements.map Prod.fst =
          [Statement.update t.name a p] := by
        rw [statements, hm]
        rfl
      rw [hperform]
      exact accounted_single (accounts_execute rfl e w id) hstatements rfl fun _ _ => rfl
  | delete t p =>
    exact accounted_single (r := t.request (Statement.delete t.name p) false)
      (accounts_execute rfl e w fun _ => ()) rfl rfl fun _ _ => rfl
  | joinAs j decode p q =>
    exact accounted_single
      (r := j.primary.request (Statement.select j.primary.name (some j.clause) p q) q.debug)
      (accounts_query e w fun h => .inl (exists_of_mapM_error h)) rfl rfl fun _ _ => rfl
  | joinOneAs j decode p q =>
    have hperform : (joinOneAs j decode p q).perform e.watched = _ := Table.fetchOne_eq hrefusal
    rw [hperform]
    exact accounted_single (accounts_query e w fun h => .inl (firstOf_error h)) rfl rfl
      fun _ _ => rfl

/-- What any call does is accounted for by its exchanges. A call that is refused has none. -/
theorem Call.account {σ α : Type} (c : Call α) (e : Engine σ) (w : Watched σ) :
    ∃ xs, Account (c.statements.map Prod.fst) c.reporter w (c.perform e.watched w) xs
      (c.warning xs.length (c.perform e.watched w).result) := by
  cases hrefusal : c.refusal with
  | none =>
    obtain ⟨xs, haccounted, -⟩ := accounted hrefusal e w
    exact ⟨xs, haccounted.account⟩
  | some failure =>
    refine ⟨[], ?_⟩
    rw [perform_of_refusal hrefusal, List.length_nil, warning_zero]
    exact .nil (.error failure)

end Tabular
