import Tabular.Proofs.Accessor.Watch
import Tabular.Proofs.Statement.Masked

/-!
# Scalars stay out of texts

Two runs of calls that differ in scalars alone cannot be told apart by the texts that they send and
the events that they report, as long as the engine tells them the same.

- `Call.SameShape`: calls of one operation that differ in scalars alone.
- `Agree`: what two engines have told is the same as far as both have told something.
- `Congruence.agreeing`: actions that do the same, as far as can be seen, when they are told the
  same. Requests do if their statements have equal masks.
- `Call.secrecy`: **calls of one shape send the same texts with as many parameters, report the same
  events and give the same result.**
-/

namespace Tabular

/-- Two lists have the same elements where both have one. -/
def Agree {α : Type} (l m : List α) : Prop :=
  ∀ (k : Nat) (a b : α), l[k]? = some a → m[k]? = some b → a = b

namespace Agree

variable {α : Type} {l l' m m' : List α}

theorem of_eq (h : l = m) : Agree l m := by
  intro k a b ha hb
  rw [h, hb] at ha
  cases ha
  rfl

/-- Beginnings of lists that agree do so. -/
theorem of_prefix (h : Agree l' m') (hl : l <+: l') (hm : m <+: m') : Agree l m := by
  obtain ⟨s, rfl⟩ := hl
  obtain ⟨t, rfl⟩ := hm
  intro k a b ha hb
  refine h k a b ?_ ?_
  · rw [List.getElem?_append_left (List.getElem?_eq_some_iff.mp ha).1]
    exact ha
  · rw [List.getElem?_append_left (List.getElem?_eq_some_iff.mp hb).1]
    exact hb

/-- After equal beginnings the next two elements are the same. -/
theorem append_pair {a a' b b' : α} (h : Agree (l ++ [a, b]) (l ++ [a', b'])) :
    a = a' ∧ b = b' := by
  have hfirst := h l.length a a' (by simp) (by simp)
  have hsecond := h (l.length + 1) b b' (by simp) (by simp)
  exact ⟨hfirst, hsecond⟩

end Agree

/-- What is seen of deliveries: their texts and the numbers of their parameters. -/
def shown (ds : List Delivery) : List (String × Nat) := ds.map fun d => (d.text, d.params.length)

theorem shown_append (ds : List Delivery) (d : Delivery) :
    shown (ds ++ [d]) = shown ds ++ [(d.text, d.params.length)] := by
  rw [shown, List.map_append]
  rfl

/-- The action takes nothing back of what has been told. -/
def Extends {σ α : Type} (x : Action (Watched σ) α) : Prop := ∀ w, w.told <+: (x w).state.told

/-- Two outcomes that look the same. -/
structure Outcome.Alike {σ τ α : Type} (r : Outcome (Watched σ) α) (r' : Outcome (Watched τ) α) :
    Prop where
  result_eq : r.result = r'.result
  events_eq : r.events = r'.events
  told_eq : r.state.told = r'.state.told
  shown_eq : shown r.state.sent = shown r'.state.sent

/-- Actions whose outcomes look the same if the engines tell them the same, when they begin after
the same has been told and seen. -/
structure Agreeing {σ τ α : Type} (x : Action (Watched σ) α) (y : Action (Watched τ) α) : Prop where
  left : Extends x
  right : Extends y
  alike : ∀ v w, v.told = w.told → shown v.sent = shown w.sent →
    Agree (x v).state.told (y w).state.told → (x v).Alike (y w)

namespace Agreeing

variable {σ τ α β : Type} {x : Action (Watched σ) α} {y : Action (Watched τ) α}

/-- Actions that speak to no engine. -/
theorem of_silent {r : Except Failure α} {es : List Event} (hx : ∀ v, x v = ⟨r, v, es⟩)
    (hy : ∀ w, y w = ⟨r, w, es⟩) : Agreeing x y where
  left v := ⟨[], by rw [hx v, List.append_nil]⟩
  right w := ⟨[], by rw [hy w, List.append_nil]⟩
  alike v w htold hsent _ := by
    rw [hx v, hy w]
    exact ⟨rfl, rfl, htold, hsent⟩

theorem andThen (hxy : Agreeing x y) {k : Except Failure α → Action (Watched σ) β}
    {l : Except Failure α → Action (Watched τ) β} (hkl : ∀ r, Agreeing (k r) (l r)) :
    Agreeing (x.andThen k) (y.andThen l) where
  left v := (hxy.left v).trans ((hkl (x v).result).left (x v).state)
  right w := (hxy.right w).trans ((hkl (y w).result).right (y w).state)
  alike v w htold hsent hagree := by
    -- what is told in the first half stays told, so the engines agree on it as well
    have hfirst : (x v).Alike (y w) := hxy.alike v w htold hsent <|
      hagree.of_prefix ((hkl (x v).result).left (x v).state)
        ((hkl (y w).result).right (y w).state)
    have hrest : (k (x v).result (x v).state).Alike (l (y w).result (y w).state) := by
      have hnext : Agree (k (x v).result (x v).state).state.told
        (l (y w).result (y w).state).state.told := hagree
      rw [← hfirst.result_eq] at hnext ⊢
      exact (hkl (x v).result).alike _ _ hfirst.told_eq hfirst.shown_eq hnext
    refine ⟨hrest.result_eq, ?_, hrest.told_eq, hrest.shown_eq⟩
    show (x v).events ++ (k (x v).result (x v).state).events =
      (y w).events ++ (l (y w).result (y w).state).events
    rw [hfirst.events_eq, hrest.events_eq]

end Agreeing

/-- Actions that do the same, as far as can be seen, when they are told the same. -/
def Congruence.agreeing (σ τ : Type) : Congruence (Watched σ) (Watched τ) where
  Rel x y := Agreeing x y
  ofExcept _ := .of_silent (fun _ => rfl) fun _ => rfl
  emit _ := .of_silent (fun _ => rfl) fun _ => rfl
  andThen hxy hkl := hxy.andThen hkl

/-- The request with its parameters masked. -/
def Request.masked (r : Request) : Request := { r with statement := r.statement.masked }

section

variable {σ τ : Type} (e : Engine σ) (f : Engine τ) {r r' : Request}

theorem Request.report_eq_of_masked (h : r.masked = r'.masked) (debug : Bool) (text : String) :
    r.report debug text = r'.report debug text := by
  have hsettings : r.settings = r'.settings := congrArg (fun r => r.settings) h
  have htable : r.table = r'.table := congrArg (fun r => r.table) h
  have hlength : r.statement.params.length = r'.statement.params.length :=
    Fragment.length_params_eq_of_masked (congrArg (fun r => r.statement) h)
  rw [report, report, hsettings, htable, hlength]

/-- An exchange goes on as the one with another engine, if both are told the same in it. -/
theorem Request.agreeing_exchange {α : Type} (h : r.masked = r'.masked) (debug : Bool)
    {ask : String → List Value → Action σ α} {ask' : String → List Value → Action τ α}
    {tell : Except Failure α → List Event → Told}
    (htell : ∀ {a b es fs}, tell a es = tell b fs → a = b ∧ es = fs) :
    Agreeing (r.exchange debug e ask tell) (r'.exchange debug f ask' tell) where
  left v := List.prefix_append _ _
  right w := List.prefix_append _ _
  alike v w htold hsent hagree := by
    have hstatement : r.statement.masked = r'.statement.masked :=
      congrArg (fun r => r.statement) h
    unfold exchange at hagree ⊢
    dsimp only at hagree ⊢
    rw [htold] at hagree ⊢
    obtain ⟨hprepared, hanswered⟩ := hagree.append_pair
    obtain ⟨hstyle, hevents⟩ := Told.prepared.inj hprepared
    obtain ⟨hresult, hevents'⟩ := htell hanswered
    -- both engines ask for the same placeholders, so that the texts are the same
    have htext : r.statement.render (e.placeholder (e.prepare v.inner).1) =
        r'.statement.render (f.placeholder (f.prepare w.inner).1) := by
      rw [hstyle, Fragment.render_eq_of_masked hstatement]
    constructor
    · exact hresult
    · show _ ++ (_ ++ _) = _ ++ (_ ++ _)
      rw [hevents, hevents', htext, Request.report_eq_of_masked h]
    · show _ ++ [_, _] = _ ++ [_, _]
      rw [hprepared, hanswered]
    · rw [shown_append, shown_append, hsent, htext,
        Fragment.length_params_eq_of_masked hstatement]

theorem Request.agreeing_query (h : r.masked = r'.masked) :
    Agreeing (r.query e.watched) (r'.query f.watched) := by
  have hdebug : r.debug = r'.debug := congrArg (fun r => r.debug) h
  rw [r.query_watched, r'.query_watched, hdebug]
  exact (Congruence.agreeing σ τ).bind
    (Request.agreeing_exchange e f h r'.debug Told.answered.inj)
    fun rows => (Congruence.agreeing σ τ).pure (rows.map Record.decoded)

theorem Request.agreeing_execute (h : r.masked = r'.masked) :
    Agreeing (r.execute e.watched) (r'.execute f.watched) := by
  rw [r.execute_watched, r'.execute_watched]
  exact Request.agreeing_exchange e f h false Told.changed.inj

end

/-! ## Calls of one shape -/

/-- Calls of one operation on the same tables that differ in scalars alone: the same columns in the
same order, the same kinds of conditions and assignments, the same operators and lists of the same
lengths. -/
inductive Call.SameShape : {α : Type} → Call α → Call α → Prop where
  | selectAs {κ ρ α : Type} [Named κ] {t : Table ρ} {decode : Record → Except Failure α}
      {p p' : Predicate κ} {q : Query κ} (hp : p.masked = p'.masked) :
      SameShape (selectAs t decode p q) (selectAs t decode p' q)
  | selectOneAs {κ ρ α : Type} [Named κ] {t : Table ρ} {decode : Record → Except Failure α}
      {p p' : Predicate κ} {q : Query κ} (hp : p.masked = p'.masked) :
      SameShape (selectOneAs t decode p q) (selectOneAs t decode p' q)
  | count {κ ρ : Type} [Named κ] {t : Table ρ} {p p' : Predicate κ} {q : Query κ}
      (hp : p.masked = p'.masked) : SameShape (count t p q) (count t p' q)
  | insert {ρ : Type} {t : Table ρ} {row row' : Record} (hrow : row.masked = row'.masked) :
      SameShape (insert t row) (insert t row')
  | insertMany {ρ : Type} {t : Table ρ} {rows rows' : List Record}
      (hrows : rows.map Record.masked = rows'.map Record.masked) :
      SameShape (insertMany t rows) (insertMany t rows')
  | update {κ ρ : Type} [Named κ] {t : Table ρ} {m m' : Mutation κ} {p p' : Predicate κ}
      (hm : m.masked = m'.masked) (hp : p.masked = p'.masked) :
      SameShape (update t m p) (update t m' p')
  | delete {κ ρ : Type} [Named κ] {t : Table ρ} {p p' : Predicate κ}
      (hp : p.masked = p'.masked) : SameShape (delete t p) (delete t p')
  | joinAs {ρ τ α : Type} {j : Join ρ τ} {decode : Record → Except Failure α}
      {p p' : Predicate j.Column} {q : Query j.Column} (hp : p.masked = p'.masked) :
      SameShape (joinAs j decode p q) (joinAs j decode p' q)
  | joinOneAs {ρ τ α : Type} {j : Join ρ τ} {decode : Record → Except Failure α}
      {p p' : Predicate j.Column} {q : Query j.Column} (hp : p.masked = p'.masked) :
      SameShape (joinOneAs j decode p q) (joinOneAs j decode p' q)

namespace Call

theorem select_masked {κ : Type} [Named κ] {p p' : Predicate κ} (hp : p.masked = p'.masked)
    (table : String) (join : Option JoinClause) (q : Query κ) :
    (Statement.select table join p q).masked = (Statement.select table join p' q).masked := by
  rw [Statement.masked_select, Statement.masked_select, hp]

theorem count_masked {κ : Type} [Named κ] {p p' : Predicate κ} (hp : p.masked = p'.masked)
    (table : String) : (Statement.count table p).masked = (Statement.count table p').masked := by
  rw [Statement.masked_count, Statement.masked_count, hp]

theorem insert_masked {row row' : Record} (hrow : row.masked = row'.masked) (table : String) :
    (Statement.insert table row).masked = (Statement.insert table row').masked := by
  rw [Statement.masked_insert, Statement.masked_insert, hrow]

theorem update_masked {κ : Type} [Named κ] {a a' : Fragment} (ha : a.masked = a'.masked)
    {p p' : Predicate κ} (hp : p.masked = p'.masked) (table : String) :
    (Statement.update table a p).masked = (Statement.update table a' p').masked := by
  rw [Statement.masked_update, Statement.masked_update, ha, hp]

theorem delete_masked {κ : Type} [Named κ] {p p' : Predicate κ} (hp : p.masked = p'.masked)
    (table : String) : (Statement.delete table p).masked = (Statement.delete table p').masked := by
  rw [Statement.masked_delete, Statement.masked_delete, hp]

/-- Mutations of one shape both assign something, or neither does. -/
theorem clause_masked {κ : Type} [Named κ] {m m' : Mutation κ} (hm : m.masked = m'.masked) :
    (∃ a a', m.clause = .ok a ∧ m'.clause = .ok a' ∧ a.masked = a'.masked) ∨
      ∃ failure, m.clause = .error failure ∧ m'.clause = .error failure := by
  have hmap : m.clause.map Fragment.masked = m'.clause.map Fragment.masked := by
    rw [m.masked_clause, m'.masked_clause, hm]
  cases h : m.clause with
  | error failure =>
    cases h' : m'.clause with
    | error failure' =>
      rw [h, h'] at hmap
      cases hmap
      exact .inr ⟨failure, rfl, rfl⟩
    | ok a' =>
      rw [h, h'] at hmap
      cases hmap
  | ok a =>
    cases h' : m'.clause with
    | error failure' =>
      rw [h, h'] at hmap
      cases hmap
    | ok a' =>
      rw [h, h'] at hmap
      exact .inl ⟨a, a', rfl, rfl, Except.ok.inj hmap⟩

/-- The requests of calls of one shape have equal masks. -/
theorem SameShape.related {α : Type} {c c' : Call α} (h : c.SameShape c') :
    c.Related (fun r r' => r.masked = r'.masked) c' := by
  have hrequest : ∀ {ρ : Type} (t : Table ρ) {a a' : Fragment} (debug : Bool),
      a.masked = a'.masked → (t.request a debug).masked = (t.request a' debug).masked := by
    intro ρ t a a' debug ha
    show Request.mk _ _ _ _ = Request.mk _ _ _ _
    rw [show (t.request a debug).statement.masked = (t.request a' debug).statement.masked from ha]
    rfl
  cases h with
  | selectAs hp => exact .selectAs (hrequest _ _ (select_masked hp _ _ _))
  | selectOneAs hp => exact .selectOneAs rfl (hrequest _ _ (select_masked hp _ _ _))
  | count hp => exact .count (hrequest _ _ (count_masked hp _))
  | insert hrow => exact .insert (.refl _) (hrequest _ _ (insert_masked hrow _))
  | @insertMany ρ t rows rows' hrows =>
    have hpairs : List.Forall₂ Eq (rows.map Record.masked) (rows'.map Record.masked) := by
      rw [List.forall₂_eq_eq_eq]
      exact hrows
    rw [List.forall₂_map_left_iff, List.forall₂_map_right_iff] at hpairs
    exact .insertMany (.refl t)
      (hpairs.imp fun _ _ hrow => hrequest _ _ (insert_masked hrow _))
  | update hm hp =>
    rcases clause_masked hm with ⟨a, a', ha, ha', hmask⟩ | ⟨failure, ha, ha'⟩
    · exact .update ha ha' (hrequest _ _ (update_masked hmask hp _))
    · exact .refused ha ha'
  | delete hp => exact .delete (hrequest _ _ (delete_masked hp _))
  | joinAs hp => exact .joinAs (hrequest _ _ (select_masked hp _ _ _))
  | joinOneAs hp => exact .joinOneAs rfl (hrequest _ _ (select_masked hp _ _ _))

/-- The statements of calls of one shape have equal masks. -/
theorem SameShape.statements {α : Type} {c c' : Call α} (h : c.SameShape c') :
    c.statements.map (fun a => a.1.masked) = c'.statements.map fun a => a.1.masked := by
  cases h with
  | selectAs hp => exact congrArg (fun m => [m]) (select_masked hp _ _ _)
  | selectOneAs hp => exact congrArg (fun m => [m]) (select_masked hp _ _ _)
  | count hp => exact congrArg (fun m => [m]) (count_masked hp _)
  | insert hrow => exact congrArg (fun m => [m]) (insert_masked hrow _)
  | @insertMany ρ t rows rows' hrows =>
    have hmask : ∀ rows : List Record,
        (Call.insertMany t rows).statements.map (fun a => a.1.masked) =
          (rows.map Record.masked).map (Statement.insert t.name) := by
      intro rows
      simp only [Call.statements, List.map_map, Function.comp_def, Statement.masked_insert]
    rw [hmask, hmask, hrows]
  | @update κ ρ _ t m m' p p' hm hp =>
    rcases clause_masked hm with ⟨a, a', ha, ha', hmask⟩ | ⟨failure, ha, ha'⟩
    · rw [Call.statements, Call.statements, ha, ha']
      exact congrArg (fun m => [m]) (update_masked hmask hp _)
    · rw [Call.statements, Call.statements, ha, ha']
  | delete hp => exact congrArg (fun m => [m]) (delete_masked hp _)
  | joinAs hp => exact congrArg (fun m => [m]) (select_masked hp _ _ _)
  | joinOneAs hp => exact congrArg (fun m => [m]) (select_masked hp _ _ _)

/-- The statements of calls of one shape have the same texts and numbers of parameters. -/
theorem SameShape.texts {α : Type} {c c' : Call α} (h : c.SameShape c') (style : Placeholder) :
    c.statements.map (fun a => (a.1.render style, a.1.params.length)) =
      c'.statements.map fun a => (a.1.render style, a.1.params.length) := by
  have hmask : ∀ d : Call α,
      d.statements.map (fun a => (a.1.render style, a.1.params.length)) =
        (d.statements.map fun a => a.1.masked).map fun m => (m.render style, m.params.length) := by
    intro d
    rw [List.map_map]
    refine List.map_congr_left fun a _ => ?_
    show _ = (a.1.render style, (a.1.params.map _).length)
    rw [List.length_map]
  rw [hmask, hmask, h.statements]

/-- Calls of one shape do the same, as far as can be seen, when they are told the same. -/
theorem SameShape.agreeing {σ τ α : Type} {c c' : Call α} (h : c.SameShape c') (e : Engine σ)
    (f : Engine τ) : Agreeing (c.perform e.watched) (c'.perform f.watched) :=
  (Congruence.agreeing σ τ).perform (fun _ _ hr => Request.agreeing_query e f hr)
    (fun _ _ hr => Request.agreeing_execute e f hr) h.related

/-- **Scalars influence neither statements nor logs.** Two calls of one shape on one state of an
engine, which answers both the same as long as both speak to it, send the same texts with as many
parameters, report the same events and give the same result. In both styles of placeholders the
texts are the same for every statement that the calls can come to. -/
theorem secrecy {σ α : Type} {c c' : Call α} (h : c.SameShape c') (e : Engine σ) (s : σ)
    (hagree : Agree (c.perform e.watched ⟨s, [], []⟩).state.told
      (c'.perform e.watched ⟨s, [], []⟩).state.told) :
    (∀ style, c.statements.map (fun a => (a.1.render style, a.1.params.length)) =
        c'.statements.map fun a => (a.1.render style, a.1.params.length)) ∧
      shown (c.perform e.watched ⟨s, [], []⟩).state.sent =
        shown (c'.perform e.watched ⟨s, [], []⟩).state.sent ∧
      (c.perform e s).events = (c'.perform e s).events ∧
      (c.perform e s).result = (c'.perform e s).result := by
  have halike := (h.agreeing e e).alike ⟨s, [], []⟩ ⟨s, [], []⟩ rfl rfl hagree
  obtain ⟨hresult, -, hevents⟩ := c.perform_watched e ⟨s, [], []⟩
  obtain ⟨hresult', -, hevents'⟩ := c'.perform_watched e ⟨s, [], []⟩
  refine ⟨h.texts, halike.shown_eq, ?_, ?_⟩
  · rw [← hevents, ← hevents', halike.events_eq]
  · rw [← hresult, ← hresult', halike.result_eq]

end Call

/-- A logged batch of two rows with this scalar in the first. -/
def sampledBatch (v : Value) : Call (List Record) :=
  .insertMany (⟨"users", { logStatements := true }, .ok⟩ : Table Record)
    [⟨[("name", v), ("age", .integer 7)]⟩, ⟨[("name", .null)]⟩]

/-- A store that takes one row and then fails. -/
def sampledStore : Recorder :=
  ⟨.numbered, [{ rows := [⟨[("name", .text "kept")]⟩] },
    { failure := some (.storage (.timedOut 3)) }], []⟩

/-- What the store tells is in its answers alone. -/
theorem told_sampledBatch (v : Value) :
    ((sampledBatch v).perform Recorder.engine.watched ⟨sampledStore, [], []⟩).state.told =
      [.prepared .numbered [], .answered (.ok [⟨[("name", .text "kept")]⟩]) [],
        .prepared .numbered [], .answered (.error (.storage (.timedOut 3))) []] := rfl

theorem Call.secrecy_sampledBatch :
    (sampledBatch (.text "x'); DROP TABLE users; --")).SameShape (sampledBatch .null) ∧
      Agree
        ((sampledBatch (.text "x'); DROP TABLE users; --")).perform Recorder.engine.watched
          ⟨sampledStore, [], []⟩).state.told
        ((sampledBatch .null).perform Recorder.engine.watched ⟨sampledStore, [], []⟩).state.told ∧
      ((sampledBatch (.text "x'); DROP TABLE users; --")).perform Recorder.engine
          sampledStore).events =
        ((sampledBatch .null).perform Recorder.engine sampledStore).events :=
  have hshape : (sampledBatch (.text "x'); DROP TABLE users; --")).SameShape (sampledBatch .null) :=
    .insertMany rfl
  have hagree := Agree.of_eq ((told_sampledBatch _).trans (told_sampledBatch _).symm)
  ⟨hshape, hagree, (Call.secrecy hshape Recorder.engine sampledStore hagree).2.2.1⟩

end Tabular
