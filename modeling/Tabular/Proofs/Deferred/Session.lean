import Tabular.Engine.Deferred
import Tabular.Proofs.Accessor.Opening

/-!
# Sessions on deferred connections

Calls one after another on one deferred connection. As long as the connection does not come up
they do nothing but try; from the call that brings it up on they do what they would do on the
connection itself.

- `Engine.session`: what a list of calls does, one after another.
- `Deferred.perform_up`, `Deferred.session_up`: a deferred connection that is up does what the
  connection does.
- `Deferred.Course`: how a session on a connection that is not up yet goes.
- `Deferred.session_inert_or_direct`: **every session goes so, and calls that are refused leave the
  deferred connection as it is.**
-/

namespace Tabular

/-! ## Sessions -/

/-- A call of any result. -/
structure AnyCall where
  Result : Type
  call : Call Result

/-- What a caller and a log get to see of a call. -/
structure Report where
  Result : Type
  result : Except Failure Result
  events : List Event

/-- What is seen of an outcome. -/
def Outcome.report {σ α : Type} (r : Outcome σ α) : Report := ⟨α, r.result, r.events⟩

/-- What calls do one after another, whether or not they succeed. -/
def Engine.session {σ : Type} (e : Engine σ) : List AnyCall → σ → List Report × σ
  | [], s => ([], s)
  | c :: cs, s =>
    let r := c.call.perform e s
    let rest := e.session cs r.state
    (r.report :: rest.1, rest.2)

/-- A session that begins with calls as on another engine and goes on as there. -/
theorem Engine.session_cons_of_eq {σ : Type} {e : Engine σ} {c : AnyCall} {s t : σ}
    (h : c.call.perform e s = c.call.perform e t) (cs : List AnyCall) :
    e.session (c :: cs) s = e.session (c :: cs) t := by
  unfold session
  rw [h]

/-- Watched states of one engine to which the same was sent. -/
structure Watched.Alike {σ : Type} (v w : Watched σ) : Prop where
  inner_eq : v.inner = w.inner
  sent_eq : v.sent = w.sent

theorem Watched.Alike.refl {σ : Type} (w : Watched σ) : w.Alike w := ⟨rfl, rfl⟩

/-- Watching an engine that gets ready without doing anything notes that it is ready. -/
theorem Engine.prepare_watched {σ : Type} {e : Engine σ} {w : Watched σ}
    (h : e.prepare w.inner = (w.inner, [])) :
    e.watched.prepare w =
      ({ w with told := w.told ++ [.prepared (e.placeholder w.inner) []] }, []) := by
  simp only [Engine.watched, h]

/-! ## Deferred connections to watched engines -/

/-- The tries to open a connection that is watched from then on. -/
def Initializer.watched {ι σ : Type} (init : Initializer ι σ) : Initializer ι (Watched σ) :=
  fun source => ((init source).1.map fun s => ⟨s, [], []⟩, (init source).2)

namespace Deferred

section

variable {ι σ : Type} {init : Initializer ι σ} {inner : Engine σ} {d : Deferred ι σ}

theorem prepare_up {s : σ} (h : d.handle = some s) : (engine init inner).prepare d = (d, []) := by
  simp only [engine, tryOnce, h]

theorem prepare_of_ok (h : d.handle = none) {s : σ} {source : ι}
    (hinit : init d.source = (.ok s, source)) :
    (engine init inner).prepare d = (⟨source, some s, d.tries + 1⟩, []) := by
  simp only [engine, tryOnce, h, hinit]

theorem prepare_of_error (h : d.handle = none) {failure : Failure} {source : ι}
    (hinit : init d.source = (.error failure, source)) :
    (engine init inner).prepare d =
      (⟨source, none, d.tries + 1⟩, [.initializationFailed failure]) := by
  simp only [engine, tryOnce, h, hinit]

theorem placeholder_up {s : σ} (h : d.handle = some s) :
    (engine init inner).placeholder d = inner.placeholder s := by
  simp only [engine, h, Option.map_some, Option.getD_some]

theorem run_up {s : σ} (h : d.handle = some s) (text : String) (params : List Value) :
    (engine init inner).run text params d =
      ⟨(inner.run text params s).result, { d with handle := some (inner.run text params s).state },
        (inner.run text params s).events⟩ := by
  simp only [engine, onHandle, h]

theorem all_up {s : σ} (h : d.handle = some s) (text : String) (params : List Value) :
    (engine init inner).all text params d =
      ⟨(inner.all text params s).result, { d with handle := some (inner.all text params s).state },
        (inner.all text params s).events⟩ := by
  simp only [engine, onHandle, h]

/-- A connection that is not up fails at every statement. -/
theorem down_of_none (h : d.handle = none) : (engine init inner).Down .uninitialized d where
  run_eq _ _ := by simp only [engine, onHandle, h]
  all_eq _ _ := by simp only [engine, onHandle, h]

end

variable {ι σ : Type} (init : Initializer ι σ) (inner : Engine σ)

/-- The engine of a deferred connection that is watched once it is up. -/
def watchedEngine : Engine (Deferred ι (Watched σ)) := engine init.watched inner.watched

/-! ## Connections that are up -/

/-- The same done to a deferred connection that is up and to the connection itself. -/
def up (ι σ : Type) : Congruence (Deferred ι (Watched σ)) (Watched σ) where
  Rel x y := ∀ d v w, d.handle = some v → v.Alike w →
    (x d).result = (y w).result ∧ (x d).events = (y w).events ∧
      ∃ v', (x d).state = { d with handle := some v' } ∧ v'.Alike (y w).state
  ofExcept _ d v _ hd hvw := by
    refine ⟨rfl, rfl, v, ?_, hvw⟩
    rw [← hd]
    rfl
  emit _ d v _ hd hvw := by
    refine ⟨rfl, rfl, v, ?_, hvw⟩
    rw [← hd]
    rfl
  andThen {α β x y k l} hxy hkl d v w hd hvw := by
    obtain ⟨hresult, hevents, v', hstate, hvw'⟩ := hxy d v w hd hvw
    -- the second action meets a connection that is still up
    obtain ⟨hresult', hevents', v'', hstate', hvw''⟩ :=
      hkl (y w).result { d with handle := some v' } v' (y w).state rfl hvw'
    rw [Action.andThen_apply, Action.andThen_apply, hresult, hevents, hstate, hevents']
    exact ⟨hresult', rfl, v'', hstate', hvw''⟩

section

variable {init inner} {d : Deferred ι (Watched σ)} {v w : Watched σ}

/-- A request for rows through a deferred connection that is up is one to the connection. The
preparation of the connection is left out, which must do nothing. -/
theorem query_up (hinner : ∀ s, inner.prepare s = (s, [])) (r : Request) :
    (up ι σ).Rel (r.query (watchedEngine init inner)) (r.query inner.watched) := by
  rintro d ⟨s, told, sent⟩ ⟨t, told', sent'⟩ hd ⟨hst, hsent⟩
  cases hst
  cases hsent
  rw [r.query_apply, r.query_apply, watchedEngine, prepare_up hd, Engine.prepare_watched (hinner s)]
  dsimp only
  rw [placeholder_up hd, all_up hd]
  exact ⟨rfl, rfl, _, rfl, rfl, rfl⟩

theorem execute_up (hinner : ∀ s, inner.prepare s = (s, [])) (r : Request) :
    (up ι σ).Rel (r.execute (watchedEngine init inner)) (r.execute inner.watched) := by
  rintro d ⟨s, told, sent⟩ ⟨t, told', sent'⟩ hd ⟨hst, hsent⟩
  cases hst
  cases hsent
  rw [r.execute_apply, r.execute_apply, watchedEngine, prepare_up hd,
    Engine.prepare_watched (hinner s)]
  dsimp only
  rw [placeholder_up hd, run_up hd]
  exact ⟨rfl, rfl, _, rfl, rfl, rfl⟩

/-- A call through a deferred connection that is up is one to the connection. -/
theorem perform_up (hinner : ∀ s, inner.prepare s = (s, [])) {α : Type} (c : Call α) :
    (up ι σ).Rel (c.perform (watchedEngine init inner)) (c.perform inner.watched) := by
  refine (up ι σ).perform ?query ?execute (c.related_self (R := Eq) fun _ => rfl)
  case query =>
    rintro r _ rfl
    exact query_up hinner r
  case execute =>
    rintro r _ rfl
    exact execute_up hinner r

/-- A session on a deferred connection that is up is one on the connection. -/
theorem session_up (init : Initializer ι σ) (hinner : ∀ s, inner.prepare s = (s, []))
    (cs : List AnyCall) : ∀ (d : Deferred ι (Watched σ)) (v w : Watched σ),
      d.handle = some v → v.Alike w →
      ((watchedEngine init inner).session cs d).1 = (inner.watched.session cs w).1 ∧
        ∃ v', ((watchedEngine init inner).session cs d).2 = { d with handle := some v' } ∧
          v'.Alike (inner.watched.session cs w).2 := by
  induction cs with
  | nil =>
    intro d v w hd hvw
    refine ⟨rfl, v, ?_, hvw⟩
    rw [← hd]
    rfl
  | cons c cs ih =>
    intro d v w hd hvw
    obtain ⟨hresult, hevents, v', hstate, hvw'⟩ := perform_up hinner c.call d v w hd hvw
    obtain ⟨hreports, v'', hend, hvw''⟩ :=
      ih { d with handle := some v' } v' (c.call.perform inner.watched w).state rfl hvw'
    have hreport : (c.call.perform (watchedEngine init inner) d).report =
        (c.call.perform inner.watched w).report := by
      unfold Outcome.report
      rw [hresult, hevents]
    unfold Engine.session
    dsimp only
    rw [hreport, hstate, hreports]
    exact ⟨rfl, v'', hend, hvw''⟩

end

/-! ## Connections that are not up yet -/

/-- How calls go one after another on a connection that is not up and has been tried so often: what
is reported of them, and what they leave. -/
inductive Course : ι → Nat → List AnyCall → List Report × Deferred ι (Watched σ) → Prop where
  | nil {source : ι} {tries : Nat} : Course source tries [] ([], ⟨source, none, tries⟩)
  /-- A call that does not speak ends as it does on any engine and does not touch this one. -/
  | silent {source : ι} {tries : Nat} {c : AnyCall} {cs : List AnyCall}
      {result : Except Failure c.Result} {rest : List Report × Deferred ι (Watched σ)}
      (hspeaks : ¬ c.call.Speaks)
      (hresult : ∀ {τ : Type} (e : Engine τ) (t : τ), c.call.perform e t = ⟨result, t, []⟩)
      (hrest : Course source tries cs rest) :
      Course source tries (c :: cs) (⟨c.Result, result, []⟩ :: rest.1, rest.2)
  /-- A call that speaks is about to send one statement, for which there is one try. The try fails,
  and so does the call. -/
  | failed {source source' : ι} {tries : Nat} {c : AnyCall} {cs : List AnyCall}
      {failure : Failure} {events : List Event} {rest : List Report × Deferred ι (Watched σ)}
      (hspeaks : c.call.Speaks)
      (hattempts : (c.call.attempts (watchedEngine init inner)
        ⟨source, none, tries⟩).length = 1)
      (hinit : init source = (.error failure, source'))
      (hrest : Course source' (tries + 1) cs rest) :
      Course source tries (c :: cs)
        (⟨c.Result, .error .uninitialized, events⟩ :: rest.1, rest.2)
  /-- A call that speaks tries once and the connection comes up. There are no tries after this
  one; the call and all that follow do what they do on the connection itself. -/
  | up {source source' : ι} {tries : Nat} {c : AnyCall} {cs : List AnyCall} {s : σ}
      {w : Watched σ} (hspeaks : c.call.Speaks) (hinit : init source = (.ok s, source'))
      (hw : w.Alike (inner.watched.session (c :: cs) ⟨s, [], []⟩).2) :
      Course source tries (c :: cs)
        ((inner.watched.session (c :: cs) ⟨s, [], []⟩).1, ⟨source', some w, tries + 1⟩)

variable {init inner}

/-- A call that is refused leaves a deferred connection as it is. -/
theorem perform_refused {α : Type} {c : Call α} {failure : Failure}
    (h : c.refusal = some failure) (d : Deferred ι (Watched σ)) :
    c.perform (watchedEngine init inner) d = ⟨.error failure, d, []⟩ := by
  rw [c.perform_of_refusal h]
  rfl

theorem watched_of_ok {source source' : ι} {s : σ} (h : init source = (.ok s, source')) :
    init.watched source = (.ok ⟨s, [], []⟩, source') := by
  simp only [Initializer.watched, h, Except.map]

theorem watched_of_error {source source' : ι} {failure : Failure}
    (h : init source = (.error failure, source')) :
    init.watched source = (.error failure, source') := by
  simp only [Initializer.watched, h, Except.map]

/-- A call that speaks tries once, and fails if the try does. -/
theorem perform_of_error (inner : Engine σ) {α : Type} {c : Call α} (hspeaks : c.Speaks)
    {source source' : ι} (tries : Nat) {failure : Failure}
    (hinit : init source = (.error failure, source')) :
    (c.perform (watchedEngine init inner) ⟨source, none, tries⟩).result = .error .uninitialized ∧
      (c.perform (watchedEngine init inner) ⟨source, none, tries⟩).state =
        ⟨source', none, tries + 1⟩ ∧
      (c.attempts (watchedEngine init inner) ⟨source, none, tries⟩).length = 1 := by
  have hprepare : (watchedEngine init inner).prepare ⟨source, none, tries⟩ =
      (⟨source', none, tries + 1⟩, [.initializationFailed failure]) :=
    prepare_of_error rfl (watched_of_error hinit)
  have hdown : (watchedEngine init inner).Down .uninitialized
      ((watchedEngine init inner).prepare ⟨source, none, tries⟩).1 := by
    rw [hprepare]
    exact down_of_none rfl
  obtain ⟨hresult, hstate, hattempts⟩ := c.perform_of_down hspeaks hdown
  refine ⟨hresult, ?_, hattempts⟩
  rw [hstate, hprepare]

/-- A call that speaks tries once, and if the connection comes up goes on as if it had been up. -/
theorem perform_of_ok {α : Type} {c : Call α} (hspeaks : c.Speaks) {source source' : ι}
    {tries : Nat} {s : σ} (hinit : init source = (.ok s, source')) :
    c.perform (watchedEngine init inner) ⟨source, none, tries⟩ =
      c.perform (watchedEngine init inner) ⟨source', some ⟨s, [], []⟩, tries + 1⟩ := by
  refine c.perform_congr hspeaks ?_
  rw [watchedEngine, prepare_of_ok rfl (watched_of_ok hinit), prepare_up rfl]

/-- A session on a deferred connection takes its course, from any number of tries on. -/
theorem session_course (hinner : ∀ s, inner.prepare s = (s, [])) (cs : List AnyCall) :
    ∀ (source : ι) (tries : Nat), Course init inner source tries cs
      ((watchedEngine init inner).session cs ⟨source, none, tries⟩) := by
  induction cs with
  | nil => exact fun _ _ => .nil
  | cons c cs ih =>
    intro source tries
    by_cases hspeaks : c.call.Speaks
    · -- the call tries, and what its try gives decides
      cases hinit : init source with
      | mk result source' =>
        cases result with
        | error failure =>
          obtain ⟨hresult, hstate, hattempts⟩ := perform_of_error inner hspeaks tries hinit
          unfold Engine.session Outcome.report
          dsimp only
          rw [hresult, hstate]
          exact .failed hspeaks hattempts hinit (ih source' (tries + 1))
        | ok s =>
          -- the call goes on as if the connection had been up, and so do the later ones
          rw [Engine.session_cons_of_eq (perform_of_ok hspeaks hinit)]
          obtain ⟨hreports, w, hend, hw⟩ := session_up init hinner (c :: cs)
            ⟨source', some ⟨s, [], []⟩, tries + 1⟩ ⟨s, [], []⟩ ⟨s, [], []⟩ rfl (.refl _)
          have hsession : (watchedEngine init inner).session (c :: cs)
              ⟨source', some ⟨s, [], []⟩, tries + 1⟩ =
              ((inner.watched.session (c :: cs) ⟨s, [], []⟩).1, ⟨source', some w, tries + 1⟩) :=
            Prod.ext hreports hend
          rw [hsession]
          exact .up hspeaks hinit hw
    · obtain ⟨result, hresult⟩ := c.call.perform_of_silent hspeaks
      have hperform := hresult (watchedEngine init inner) ⟨source, none, tries⟩
      unfold Engine.session
      dsimp only
      rw [hperform]
      exact .silent hspeaks hresult (ih source tries)

/-- **Calls through a deferred connection do nothing at all or what they do on the connection
itself**, given that the connection gets ready without doing anything. Until the first try that
succeeds, a call that is about to send a statement tries once, fails as uninitialized and sends
nothing; from the call whose try succeeds on there are no more tries, and results, events and
deliveries are those of the same calls on the connection as it came up. A call that is refused
leaves the deferred connection as it is, whether or not it is up. -/
theorem session_inert_or_direct (init : Initializer ι σ) (inner : Engine σ)
    (hinner : ∀ s, inner.prepare s = (s, [])) (source : ι) (cs : List AnyCall) :
    Course init inner source 0 cs
        ((watchedEngine init inner).session cs ⟨source, none, 0⟩) ∧
      ∀ (c : AnyCall) (failure : Failure), c.call.refusal = some failure →
        (∃ fault, failure = .configuration fault) ∧
          ∀ d, c.call.perform (watchedEngine init inner) d = ⟨.error failure, d, []⟩ :=
  ⟨session_course hinner cs source 0, fun _ _ hrefusal =>
    ⟨Call.refusal_configuration hrefusal, perform_refused hrefusal⟩⟩

/-- The first try fails, and every later one succeeds. -/
def sampledInitializer : Initializer Nat Recorder
  | 0 => (.error (.storage (.reported "down")), 1)
  | n + 1 =>
    (.ok ⟨.numbered, [{ rows := [.empty] }, { failure := some .uninitialized }], []⟩, n + 2)

/-- An update that assigns nothing, a deletion that meets the failing try, and a batch whose second
row the connection does not take. -/
def sampledSession : List AnyCall :=
  let t : Table Record := ⟨"users", {}, .ok⟩
  let row : Record := OrderedMap.empty.insert "name" (.text "ada")
  [⟨Nat, .update t (Mutation.empty : Mutation String) (Predicate.all Filter.empty)⟩,
    ⟨Unit, .delete t (Predicate.all (Filter.empty.equals "id" (.integer 3)))⟩,
    ⟨List Record, .insertMany t [row, row, row]⟩]

theorem session_inert_or_direct_sampled :
    (∀ s, Recorder.engine.prepare s = (s, [])) ∧
      Course sampledInitializer Recorder.engine 0 0 sampledSession
        ((watchedEngine sampledInitializer Recorder.engine).session sampledSession ⟨0, none, 0⟩) ∧
      let d := ((watchedEngine sampledInitializer Recorder.engine).session sampledSession
        ⟨0, none, 0⟩).2
      d.tries = 2 ∧ d.handle.map (fun w => w.sent.map Delivery.text) =
        some ["INSERT INTO users (name) VALUES ($1) RETURNING *",
          "INSERT INTO users (name) VALUES ($1) RETURNING *"] :=
  ⟨fun _ => rfl,
    (session_inert_or_direct sampledInitializer Recorder.engine (fun _ => rfl) 0 sampledSession).1,
    by decide +kernel, by decide +kernel⟩

end Deferred

end Tabular
