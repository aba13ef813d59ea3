import Tabular.Proofs.Accessor.Exchange
import Tabular.Proofs.Deferred.Session

/-!
# Logging

What is logged of statements depends on nothing but the statements that are attempted, and nothing
else depends on it.

- `Call.relogged`: the call with other log settings. It differs in nothing but its requests, whose
  statements are the same, and so in nothing but its events (`Call.perform_relogged`).
- `Call.Logs`: the events of a call that comes to some exchanges, with one event for each statement
  if the table or the query asks for it, and with none otherwise.
- `Engine.session_logging`: **log settings change nothing but the log of a session, and the log
  tells one statement after another.**
-/

namespace Tabular

/-! ## Other log settings -/

/-- The settings of a table that concern its log. -/
structure LogSettings where
  logStatements : Bool
  maxLogged : Option Nat
  level : Level

/-- Log settings for the table of a call and for a table joined with it, and whether its query asks
for its statement to be logged. -/
structure Relogging where
  table : LogSettings
  joined : LogSettings
  debug : Bool

section

variable {κ ρ τ α : Type}

def Table.relogged (t : Table ρ) (l : LogSettings) : Table ρ :=
  { t with settings := ⟨t.settings.batchLimit, l.logStatements, l.maxLogged, l.level⟩ }

def Join.relogged (j : Join ρ τ) (l : Relogging) : Join ρ τ :=
  { j with primary := j.primary.relogged l.table, secondary := j.secondary.relogged l.joined }

def Query.relogged (q : Query κ) (l : Relogging) : Query κ := { q with debug := l.debug }

/-- The call with other log settings and otherwise the same. -/
def Call.relogged (l : Relogging) : {α : Type} → Call α → Call α
  | _, selectAs t decode p q => selectAs (t.relogged l.table) decode p (q.relogged l)
  | _, selectOneAs t decode p q => selectOneAs (t.relogged l.table) decode p (q.relogged l)
  | _, count t p q => count (t.relogged l.table) p (q.relogged l)
  | _, insert t row => insert (t.relogged l.table) row
  | _, insertMany t rows => insertMany (t.relogged l.table) rows
  | _, update t m p => update (t.relogged l.table) m p
  | _, delete t p => delete (t.relogged l.table) p
  | _, joinAs j decode p q => joinAs (j.relogged l) decode p (q.relogged l)
  | _, joinOneAs j decode p q => joinOneAs (j.relogged l) decode p (q.relogged l)

theorem Table.akin_relogged (t : Table ρ) (l : LogSettings) : t.Akin (t.relogged l) :=
  ⟨rfl, rfl, rfl⟩

/-- A call with other log settings has requests of the same statements. -/
theorem Call.related_relogged (l : Relogging) (c : Call α) :
    c.Related (fun r r' => r.statement = r'.statement) (c.relogged l) := by
  cases c with
  | selectAs t decode p q => exact .selectAs rfl
  | selectOneAs t decode p q => exact .selectOneAs rfl rfl
  | count t p q => exact .count rfl
  | insert t row => exact .insert (t.akin_relogged l.table) rfl
  | insertMany t rows =>
    exact .insertMany (t.akin_relogged l.table) (List.forall₂_same.mpr fun _ _ => rfl)
  | update t m p =>
    cases hm : m.clause with
    | error e => exact .refused hm hm
    | ok a => exact .update hm hm rfl
  | delete t p => exact .delete rfl
  | joinAs j decode p q => exact .joinAs rfl
  | joinOneAs j decode p q => exact .joinOneAs rfl rfl

end

/-- Two actions that differ in nothing but their events. -/
def Congruence.quiet (σ : Type) : Congruence σ σ where
  Rel x y := ∀ s, (x s).result = (y s).result ∧ (x s).state = (y s).state
  ofExcept _ _ := ⟨rfl, rfl⟩
  emit _ _ := ⟨rfl, rfl⟩
  andThen {α β x y k l} hxy hkl s := by
    obtain ⟨hresult, hstate⟩ := hxy s
    rw [Action.andThen_apply, Action.andThen_apply, hresult, hstate]
    exact hkl (y s).result (y s).state

/-- Other log settings change nothing but the events of a call. -/
theorem Call.perform_relogged {σ α : Type} (l : Relogging) (c : Call α) (e : Engine σ) (s : σ) :
    (c.perform e s).result = ((c.relogged l).perform e s).result ∧
      (c.perform e s).state = ((c.relogged l).perform e s).state := by
  refine (Congruence.quiet σ).perform ?query ?execute (c.related_relogged l) s
  case query =>
    intro r r' h t
    rw [r.query_apply, r'.query_apply, h]
    exact ⟨rfl, rfl⟩
  case execute =>
    intro r r' h t
    rw [r.execute_apply, r'.execute_apply, h]
    exact ⟨rfl, rfl⟩

/-- The calls are the same but for log settings. -/
def AnyCall.Relogged (c d : AnyCall) : Prop := ∃ l, d = ⟨c.Result, c.call.relogged l⟩

/-- A report without its events. -/
def Report.quiet (r : Report) : Report := { r with events := [] }

/-- Other log settings change nothing but the events of a session. -/
theorem Engine.session_relogged {σ : Type} (e : Engine σ) {cs ds : List AnyCall}
    (h : List.Forall₂ AnyCall.Relogged cs ds) : ∀ s,
    (e.session ds s).2 = (e.session cs s).2 ∧
      (e.session ds s).1.map Report.quiet = (e.session cs s).1.map Report.quiet := by
  induction h with
  | nil => exact fun _ => ⟨rfl, rfl⟩
  | @cons c _ cs ds hcall _ ih =>
    obtain ⟨l, rfl⟩ := hcall
    intro s
    obtain ⟨hresult, hstate⟩ := c.call.perform_relogged l e s
    obtain ⟨hend, hreports⟩ := ih (c.call.perform e s).state
    -- the call leaves the same engine, so the rest of the session starts as it did
    have hquiet : ((c.call.relogged l).perform e s).report.quiet =
        (c.call.perform e s).report.quiet := by
      unfold Outcome.report Report.quiet
      dsimp only
      rw [hresult]
    unfold Engine.session
    dsimp only
    rw [← hstate, List.map_cons, List.map_cons, hquiet, hreports]
    exact ⟨hend, rfl⟩

/-! ## What is logged -/

namespace Reporter

variable {p : Reporter}

theorem log_of_asked (h : p.settings.logStatements = true ∨ p.debug = true) (x : Exchange) :
    x.log p = x.before ++ p.event x.delivery :: x.after := by
  have hasked : (p.debug || p.settings.logStatements) = true := by
    rw [Bool.or_eq_true]
    exact h.symm
  rw [Exchange.log, report, if_pos hasked, List.singleton_append]

theorem log_of_unasked (hsettings : p.settings.logStatements = false) (hdebug : p.debug = false)
    (x : Exchange) : x.log p = x.before ++ x.after := by
  rw [Exchange.log, report, hsettings, hdebug]
  rfl

end Reporter

/-- The events of a call that comes to these exchanges and ends like this. Apart from what the
engine reports in an exchange, and from the warning of a batch that stops, there is one event for
each statement in its place if the settings of the table or the query ask for it, and none if
neither does. -/
structure Call.Logs {α : Type} (c : Call α) (xs : List Exchange) (result : Except Failure α)
    (events : List Event) : Prop where
  /-- The statements are the first ones of the call. -/
  statements : List.Forall₂ (fun x a => x.delivery = a.delivery x.style) xs
    ((c.statements.map Prod.fst).take xs.length)
  asked : c.reporter.settings.logStatements = true ∨ c.reporter.debug = true →
    events = xs.flatMap (fun x => x.before ++ c.reporter.event x.delivery :: x.after) ++
      c.warning xs.length result
  unasked : c.reporter.settings.logStatements = false → c.reporter.debug = false →
    events = xs.flatMap (fun x => x.before ++ x.after) ++ c.warning xs.length result

/-- An account of a call tells its log. -/
theorem Account.logs {σ α : Type} {c : Call α} {w : Watched σ} {o : Outcome (Watched σ) α}
    {xs : List Exchange} (h : Account (c.statements.map Prod.fst) c.reporter w o xs
      (c.warning xs.length o.result)) : c.Logs xs o.result o.events := by
  constructor
  case statements => exact h.statements
  case asked =>
    intro hasked
    rw [h.events_eq]
    congr 2
    funext x
    exact Reporter.log_of_asked hasked x
  case unasked =>
    intro hsettings hdebug
    rw [h.events_eq]
    congr 2
    funext x
    exact Reporter.log_of_unasked hsettings hdebug x

/-- The log of a session, call by call. -/
inductive Chronicle : List AnyCall → List (List Exchange) → List Report → Prop where
  | nil : Chronicle [] [] []
  | cons {c : AnyCall} {cs : List AnyCall} {xs : List Exchange} {xss : List (List Exchange)}
      {result : Except Failure c.Result} {events : List Event} {reports : List Report}
      (hcall : c.call.Logs xs result events) (hrest : Chronicle cs xss reports) :
      Chronicle (c :: cs) (xs :: xss) (⟨c.Result, result, events⟩ :: reports)

/-- Watching changes nothing of what is reported of a session. -/
theorem Engine.session_watched {σ : Type} (e : Engine σ) (cs : List AnyCall) : ∀ w : Watched σ,
    (e.watched.session cs w).1 = (e.session cs w.inner).1 := by
  induction cs with
  | nil => exact fun _ => rfl
  | cons c cs ih =>
    intro w
    obtain ⟨hresult, hstate, hevents⟩ := c.call.perform_watched e w
    have hreport : (c.call.perform e.watched w).report = (c.call.perform e w.inner).report := by
      unfold Outcome.report
      rw [hresult, hevents]
    unfold Engine.session
    dsimp only
    rw [hreport, ih, hstate]

/-- What a session says and sends are the exchanges of its calls, and its log tells them. -/
theorem Engine.session_chronicle {σ : Type} (e : Engine σ) (cs : List AnyCall) : ∀ w : Watched σ,
    ∃ xss : List (List Exchange),
      (e.watched.session cs w).2.told = w.told ++ xss.flatten.flatMap Exchange.told ∧
      (e.watched.session cs w).2.sent = w.sent ++ xss.flatten.map Exchange.delivery ∧
      Chronicle cs xss (e.watched.session cs w).1 := by
  induction cs with
  | nil => exact fun w => ⟨[], (List.append_nil _).symm, (List.append_nil _).symm, .nil⟩
  | cons c cs ih =>
    intro w
    obtain ⟨xs, haccount⟩ := c.call.account e w
    -- the rest of the session is told after what this call has left in the record
    obtain ⟨xss, htold, hsent, hrest⟩ := ih (c.call.perform e.watched w).state
    refine ⟨xs :: xss, ?_, ?_, .cons haccount.logs hrest⟩
    · rw [List.flatten_cons, List.flatMap_append, ← List.append_assoc, ← haccount.told_eq]
      exact htold
    · rw [List.flatten_cons, List.map_append, ← List.append_assoc, ← haccount.sent_eq]
      exact hsent

/-- **Logging is inert and complete.** Calls with other log settings, one after another on one
engine, give the same results, leave the same engine, tried as often if it is deferred, and have
handed it the same. And whatever the settings are, the log of a session tells of each statement that
was handed over if its table or its query asks for that, in the order and the place of its exchange,
and of no other. -/
theorem Engine.session_logging {σ : Type} (e : Engine σ) (s : σ) (cs : List AnyCall) :
    (∀ ds, List.Forall₂ AnyCall.Relogged cs ds →
      (e.watched.session ds ⟨s, [], []⟩).2 = (e.watched.session cs ⟨s, [], []⟩).2 ∧
        (e.session ds s).1.map Report.quiet = (e.session cs s).1.map Report.quiet) ∧
      ∃ xss : List (List Exchange),
        (e.watched.session cs ⟨s, [], []⟩).2.told = xss.flatten.flatMap Exchange.told ∧
        (e.watched.session cs ⟨s, [], []⟩).2.sent = xss.flatten.map Exchange.delivery ∧
        Chronicle cs xss (e.session cs s).1 := by
  constructor
  · intro ds h
    exact ⟨(e.watched.session_relogged h _).1, (e.session_relogged h s).2⟩
  · obtain ⟨xss, htold, hsent, hchronicle⟩ := e.session_chronicle cs ⟨s, [], []⟩
    rw [e.session_watched] at hchronicle
    exact ⟨xss, htold, hsent, hchronicle⟩

/-- The table logs the first bytes of all its statements. -/
def sampledRelogging : Relogging where
  table := ⟨true, some 6, .info⟩
  joined := ⟨false, none, .debug⟩
  debug := false

/-- A session with a refused call, a connection that does not come up at once, and a batch that
stops, all of it logged. -/
def sampledLoggedSession : List AnyCall :=
  Deferred.sampledSession.map fun c => ⟨c.Result, c.call.relogged sampledRelogging⟩

theorem Engine.session_logging_sampled :
    let e := Deferred.engine Deferred.sampledInitializer Recorder.engine
    let s : Deferred Nat Recorder := ⟨0, none, 0⟩
    List.Forall₂ AnyCall.Relogged Deferred.sampledSession sampledLoggedSession ∧
      (e.watched.session sampledLoggedSession ⟨s, [], []⟩).2 =
        (e.watched.session Deferred.sampledSession ⟨s, [], []⟩).2 ∧
      (e.session Deferred.sampledSession s).1.map Report.events =
        [[], [.initializationFailed (.storage (.reported "down"))],
          [.batchStopped "users" 1 3 .uninitialized]] ∧
      (e.session sampledLoggedSession s).1.map Report.events =
        [[], [.initializationFailed (.storage (.reported "down")),
            .statement .info "users" 1 "DELETE..."],
          [.statement .info "users" 1 "INSERT...", .statement .info "users" 1 "INSERT...",
            .batchStopped "users" 1 3 .uninitialized]] ∧
      ∃ xss, (e.watched.session sampledLoggedSession ⟨s, [], []⟩).2.sent =
          xss.flatten.map Exchange.delivery ∧
        Chronicle sampledLoggedSession xss (e.session sampledLoggedSession s).1 := by
  intro e s
  have hrelogged : List.Forall₂ AnyCall.Relogged Deferred.sampledSession sampledLoggedSession :=
    List.forall₂_map_right_iff.mpr (List.forall₂_same.mpr fun _ _ => ⟨sampledRelogging, rfl⟩)
  obtain ⟨hinert, -⟩ := e.session_logging s Deferred.sampledSession
  obtain ⟨-, xss, -, hsent, hchronicle⟩ := e.session_logging s sampledLoggedSession
  exact ⟨hrelogged, (hinert _ hrelogged).1, by decide +kernel, by decide +kernel, xss, hsent,
    hchronicle⟩

end Tabular
