import Mathlib.Data.List.Forall2
import Tabular.Proofs.Statement.Contents

/-!
# Calls of accessors

The operations of tables and joins as data, so that something can be said about every one of them.

- `Call`, `Call.perform`: the operations with their descriptors, and what they do.
- `Call.statements`: the statements that a call may send, in order.
- `Request`: a statement together with what its table adds to it when it is sent.
- `Call.Related`: two calls that differ in nothing but their requests.
- `Action.andThen`: one action after another, of which going on after a success and going on after
  a failure are cases.
- `Congruence`: a relation between actions that the ways to put actions together keep. It holds of
  related calls as soon as it holds of related requests (`Congruence.perform`).
-/

namespace Tabular

/-- An operation of a table or of a join with its descriptors. Rows of a table are selected by
`selectAs` with the `decode` of the table, joined rows by `joinAs` with the one that keeps them. -/
inductive Call : Type → Type 1 where
  | selectAs {κ ρ α : Type} [Named κ] (t : Table ρ) (decode : Record → Except Failure α)
      (predicate : Predicate κ) (query : Query κ) : Call (List α)
  | selectOneAs {κ ρ α : Type} [Named κ] (t : Table ρ) (decode : Record → Except Failure α)
      (predicate : Predicate κ) (query : Query κ) : Call (Option α)
  | count {κ ρ : Type} [Named κ] (t : Table ρ) (predicate : Predicate κ) (query : Query κ) :
      Call Int64
  | insert {ρ : Type} (t : Table ρ) (row : Record) : Call ρ
  | insertMany {ρ : Type} (t : Table ρ) (rows : List Record) : Call (List ρ)
  | update {κ ρ : Type} [Named κ] (t : Table ρ) (mutation : Mutation κ)
      (predicate : Predicate κ) : Call Nat
  | delete {κ ρ : Type} [Named κ] (t : Table ρ) (predicate : Predicate κ) : Call Unit
  | joinAs {ρ τ α : Type} (j : Join ρ τ) (decode : Record → Except Failure α)
      (predicate : Predicate j.Column) (query : Query j.Column) : Call (List α)
  | joinOneAs {ρ τ α : Type} (j : Join ρ τ) (decode : Record → Except Failure α)
      (predicate : Predicate j.Column) (query : Query j.Column) : Call (Option α)

/-- The query for one row. -/
def Query.limited {κ : Type} (q : Query κ) : Query κ := { q with limit := some 1 }

namespace Call

variable {σ α : Type}

/-- What a call does through an engine. -/
def perform (e : Engine σ) : {α : Type} → Call α → Action σ α
  | _, selectAs t decode p q => t.selectAs e decode p q
  | _, selectOneAs t decode p q => t.selectOneAs e decode p q
  | _, count t p q => t.count e p q
  | _, insert t row => t.insert e row
  | _, insertMany t rows => t.insertMany e rows
  | _, update t m p => t.update e m p
  | _, delete t p => t.delete e p
  | _, joinAs j decode p q => j.selectAs e decode p q
  | _, joinOneAs j decode p q => j.selectOneAs e decode p q

/-- The names of tables and columns in a call. -/
def names : {α : Type} → Call α → List String
  | _, selectAs t _ p q | _, selectOneAs t _ p q => t.name :: (p.names ++ q.names)
  | _, count t p _ => t.name :: p.names
  | _, insert t row => t.name :: row.names
  | _, insertMany t rows => t.name :: rows.flatMap OrderedMap.names
  | _, update t m p => t.name :: (m.names ++ p.names)
  | _, delete t p => t.name :: p.names
  | _, joinAs j _ p q | _, joinOneAs j _ p q => j.names ++ (p.names ++ q.names)

/-- The statements that a call may send, in order, each with the scalars of its descriptors as
they come in the source. -/
def statements : {α : Type} → Call α → List (Fragment × List Value)
  | _, selectAs t _ p q => [(Statement.select t.name none p q, p.scalars)]
  | _, selectOneAs t _ p q => [(Statement.select t.name none p q.limited, p.scalars)]
  | _, count t p _ => [(Statement.count t.name p, p.scalars)]
  | _, insert t row => [(Statement.insert t.name row, row.scalars)]
  | _, insertMany t rows => rows.map fun row => (Statement.insert t.name row, row.scalars)
  | _, update t m p =>
    match m.clause with
    | .ok a => [(Statement.update t.name a p, m.scalars ++ p.scalars)]
    | .error _ => []
  | _, delete t p => [(Statement.delete t.name p, p.scalars)]
  | _, joinAs j _ p q => [(Statement.select j.primary.name (some j.clause) p q, p.scalars)]
  | _, joinOneAs j _ p q =>
    [(Statement.select j.primary.name (some j.clause) p q.limited, p.scalars)]

end Call

/-! ## Requests -/

/-- A statement with what its table adds to it. -/
structure Request where
  table : String
  settings : TableSettings
  statement : Fragment
  debug : Bool

namespace Request

/-- The table of a request, whose rows stay records. -/
def sender (r : Request) : Table Record := ⟨r.table, r.settings, .ok⟩

variable {σ : Type}

/-- A request for rows. -/
def query (r : Request) (e : Engine σ) : Action σ (List Record) :=
  r.sender.query e r.statement r.debug

/-- A request for changes; these are never logged on demand. -/
def execute (r : Request) (e : Engine σ) : Action σ Nat := r.sender.execute e r.statement

end Request

/-- The request that a table makes of a statement. -/
def Table.request {ρ : Type} (t : Table ρ) (statement : Fragment) (debug : Bool) : Request :=
  ⟨t.name, t.settings, statement, debug⟩

/-- Sending a statement takes of its table only what is in the request. -/
theorem Table.execute_request {ρ σ : Type} (t : Table ρ) (e : Engine σ) (a : Fragment)
    (debug : Bool) : (t.request a debug).execute e = t.execute e a := rfl

/-- An update that assigns something sends its statement. -/
theorem Table.update_of_ok {κ ρ σ : Type} [Named κ] {t : Table ρ} {e : Engine σ} {m : Mutation κ}
    {p : Predicate κ} {a : Fragment} (h : m.clause = .ok a) :
    t.update e m p = t.execute e (Statement.update t.name a p) := by
  unfold Table.update
  rw [h]
  exact pure_bind a _

/-- An update that assigns nothing fails and does nothing else. -/
theorem Table.update_of_error {κ ρ σ : Type} [Named κ] {t : Table ρ} {e : Engine σ}
    {m : Mutation κ} {p : Predicate κ} {failure : Failure} (h : m.clause = .error failure) :
    t.update e m p = throw failure := by
  unfold Table.update
  rw [h]
  rfl

/-- Tables that read rows in one way, and report failures of batches under one name and of one
size. -/
structure Table.Akin {ρ : Type} (t u : Table ρ) : Prop where
  name_eq : t.name = u.name
  decode_eq : t.decode = u.decode
  batchLimit_eq : t.settings.batchLimit = u.settings.batchLimit

theorem Table.Akin.refl {ρ : Type} (t : Table ρ) : t.Akin t := ⟨rfl, rfl, rfl⟩

namespace Call

/-- Two calls of one operation, equal in everything but their requests, which are in relation. -/
inductive Related (R : Request → Request → Prop) : {α : Type} → Call α → Call α → Prop where
  | selectAs {κ ρ α : Type} [Named κ] {t u : Table ρ} {decode : Record → Except Failure α}
      {p p' : Predicate κ} {q q' : Query κ}
      (h : R (t.request (Statement.select t.name none p q) q.debug)
        (u.request (Statement.select u.name none p' q') q'.debug)) :
      Related R (selectAs t decode p q) (selectAs u decode p' q')
  | selectOneAs {κ ρ α : Type} [Named κ] {t u : Table ρ} {decode : Record → Except Failure α}
      {p p' : Predicate κ} {q q' : Query κ} (hlimit : q.limit = q'.limit)
      (h : R (t.request (Statement.select t.name none p q.limited) q.debug)
        (u.request (Statement.select u.name none p' q'.limited) q'.debug)) :
      Related R (selectOneAs t decode p q) (selectOneAs u decode p' q')
  | count {κ ρ : Type} [Named κ] {t u : Table ρ} {p p' : Predicate κ} {q q' : Query κ}
      (h : R (t.request (Statement.count t.name p) q.debug)
        (u.request (Statement.count u.name p') q'.debug)) :
      Related R (count t p q) (count u p' q')
  | insert {ρ : Type} {t u : Table ρ} (ht : t.Akin u) {row row' : Record}
      (h : R (t.request (Statement.insert t.name row) false)
        (u.request (Statement.insert u.name row') false)) :
      Related R (insert t row) (insert u row')
  | insertMany {ρ : Type} {t u : Table ρ} (ht : t.Akin u) {rows rows' : List Record}
      (h : List.Forall₂ (fun row row' => R (t.request (Statement.insert t.name row) false)
        (u.request (Statement.insert u.name row') false)) rows rows') :
      Related R (insertMany t rows) (insertMany u rows')
  | update {κ ρ : Type} [Named κ] {t u : Table ρ} {m m' : Mutation κ} {p p' : Predicate κ}
      {a a' : Fragment} (hm : m.clause = .ok a) (hm' : m'.clause = .ok a')
      (h : R (t.request (Statement.update t.name a p) false)
        (u.request (Statement.update u.name a' p') false)) :
      Related R (update t m p) (update u m' p')
  | refused {κ ρ : Type} [Named κ] {t u : Table ρ} {m m' : Mutation κ} {p p' : Predicate κ}
      {e : Failure} (hm : m.clause = .error e) (hm' : m'.clause = .error e) :
      Related R (update t m p) (update u m' p')
  | delete {κ ρ : Type} [Named κ] {t u : Table ρ} {p p' : Predicate κ}
      (h : R (t.request (Statement.delete t.name p) false)
        (u.request (Statement.delete u.name p') false)) :
      Related R (delete t p) (delete u p')
  | joinAs {ρ τ α : Type} {j k : Join ρ τ} {decode : Record → Except Failure α}
      {p : Predicate j.Column} {p' : Predicate k.Column} {q : Query j.Column}
      {q' : Query k.Column}
      (h : R (j.primary.request (Statement.select j.primary.name (some j.clause) p q) q.debug)
        (k.primary.request (Statement.select k.primary.name (some k.clause) p' q') q'.debug)) :
      Related R (joinAs j decode p q) (joinAs k decode p' q')
  | joinOneAs {ρ τ α : Type} {j k : Join ρ τ} {decode : Record → Except Failure α}
      {p : Predicate j.Column} {p' : Predicate k.Column} {q : Query j.Column}
      {q' : Query k.Column} (hlimit : q.limit = q'.limit)
      (h : R
        (j.primary.request (Statement.select j.primary.name (some j.clause) p q.limited) q.debug)
        (k.primary.request (Statement.select k.primary.name (some k.clause) p' q'.limited)
          q'.debug)) :
      Related R (joinOneAs j decode p q) (joinOneAs k decode p' q')

end Call

/-! ## Actions one after another -/

namespace Action

variable {σ α β : Type}

/-- One action and then another, which is told how the first one ended. -/
def andThen (x : Action σ α) (k : Except Failure α → Action σ β) : Action σ β := fun s =>
  let r := x s
  let r' := k r.result r.state
  ⟨r'.result, r'.state, r.events ++ r'.events⟩

theorem andThen_apply (x : Action σ α) (k : Except Failure α → Action σ β) (s : σ) :
    x.andThen k s = ⟨(k (x s).result (x s).state).result, (k (x s).result (x s).state).state,
      (x s).events ++ (k (x s).result (x s).state).events⟩ := rfl

/-- Goes on after a success. -/
def onOk (f : α → Action σ β) : Except Failure α → Action σ β
  | .ok a => f a
  | .error e => fail e

/-- Goes on after a failure. -/
def onError (f : Failure → Action σ α) : Except Failure α → Action σ α
  | .ok a => Action.pure a
  | .error e => f e

theorem bind_eq_andThen (x : Action σ α) (f : α → Action σ β) : x >>= f = x.andThen (onOk f) := by
  funext s
  show Action.bind x f s = _
  unfold Action.bind andThen
  rcases x s with ⟨_ | a, t, es⟩
  · simp [onOk, fail]
  · rfl

theorem handle_eq_andThen (x : Action σ α) (f : Failure → Action σ α) :
    handle x f = x.andThen (onError f) := by
  funext s
  unfold handle andThen
  rcases x s with ⟨_ | a, t, es⟩
  · rfl
  · simp [onError, Action.pure]

end Action

/-! ## Relations between actions -/

/-- A relation between actions over two kinds of states that holds between what is put together
from related actions in the same way. -/
structure Congruence (σ τ : Type) where
  Rel : {α : Type} → Action σ α → Action τ α → Prop
  ofExcept : ∀ {α : Type} (r : Except Failure α), Rel (Action.ofExcept r) (Action.ofExcept r)
  emit : ∀ e : Event, Rel (Action.emit e) (Action.emit e)
  andThen : ∀ {α β : Type} {x : Action σ α} {y : Action τ α} {k : Except Failure α → Action σ β}
    {l : Except Failure α → Action τ β}, Rel x y → (∀ r, Rel (k r) (l r)) →
    Rel (x.andThen k) (y.andThen l)

namespace Congruence

variable {κ κ' ρ σ τ α β : Type} [Named κ] [Named κ'] (C : Congruence σ τ) {e : Engine σ}
  {f : Engine τ}

theorem pure (a : α) : C.Rel (pure a) (pure a) := C.ofExcept (.ok a)

theorem throw (e : Failure) : C.Rel (throw e : Action σ α) (throw e) := C.ofExcept (.error e)

theorem bind {x : Action σ α} {y : Action τ α} {f : α → Action σ β} {g : α → Action τ β}
    (hxy : C.Rel x y) (hfg : ∀ a, C.Rel (f a) (g a)) : C.Rel (x >>= f) (y >>= g) := by
  rw [Action.bind_eq_andThen, Action.bind_eq_andThen]
  refine C.andThen hxy fun r => ?_
  cases r with
  | error e => exact C.throw e
  | ok a => exact hfg a

theorem handle {x : Action σ α} {y : Action τ α} {f : Failure → Action σ α}
    {g : Failure → Action τ α} (hxy : C.Rel x y) (hfg : ∀ e, C.Rel (f e) (g e)) :
    C.Rel (Action.handle x f) (Action.handle y g) := by
  rw [Action.handle_eq_andThen, Action.handle_eq_andThen]
  refine C.andThen hxy fun r => ?_
  cases r with
  | error e => exact hfg e
  | ok a => exact C.pure a

/-! What tables do is related as soon as their requests are. -/

section

variable {t u : Table ρ}

theorem fetch {join join' : Option JoinClause} {p : Predicate κ} {p' : Predicate κ'}
    {q : Query κ} {q' : Query κ'} (decode : Record → Except Failure α)
    (h : C.Rel ((t.request (Statement.select t.name join p q) q.debug).query e)
      ((u.request (Statement.select u.name join' p' q') q'.debug).query f)) :
    C.Rel (t.fetch e join decode p q) (u.fetch f join' decode p' q') :=
  C.bind h fun rows => C.ofExcept (rows.mapM decode)

theorem fetchOne {join join' : Option JoinClause} {p : Predicate κ} {p' : Predicate κ'}
    {q : Query κ} {q' : Query κ'} (decode : Record → Except Failure α)
    (hlimit : q.limit = q'.limit)
    (h : C.Rel ((t.request (Statement.select t.name join p q.limited) q.debug).query e)
      ((u.request (Statement.select u.name join' p' q'.limited) q'.debug).query f)) :
    C.Rel (t.fetchOne e join decode p q) (u.fetchOne f join' decode p' q') := by
  unfold Table.fetchOne
  rw [hlimit]
  dsimp only
  split
  · exact C.bind (C.fetch decode h) fun rows => C.pure rows.head?
  · exact C.throw _

theorem count {p : Predicate κ} {p' : Predicate κ'} {q : Query κ} {q' : Query κ'}
    (h : C.Rel ((t.request (Statement.count t.name p) q.debug).query e)
      ((u.request (Statement.count u.name p') q'.debug).query f)) :
    C.Rel (t.count e p q) (u.count f p' q') := by
  refine C.bind h fun rows => ?_
  cases rows with
  | nil => exact C.pure 0
  | cons row rows => exact C.ofExcept _

theorem insert (ht : t.Akin u) {row row' : Record}
    (h : C.Rel ((t.request (Statement.insert t.name row) false).query e)
      ((u.request (Statement.insert u.name row') false).query f)) :
    C.Rel (t.insert e row) (u.insert f row') := by
  refine C.bind h fun rows => ?_
  cases rows.getLast? with
  | none =>
    rw [ht.name_eq]
    exact C.throw _
  | some row =>
    rw [ht.decode_eq]
    exact C.ofExcept _

/-- A batch that ends at a row reports the same on both sides. -/
theorem insertFrom (ht : t.Akin u) (total : Nat) {rows rows' : List Record}
    (h : List.Forall₂ (fun row row' =>
      C.Rel ((t.request (Statement.insert t.name row) false).query e)
        ((u.request (Statement.insert u.name row') false).query f)) rows rows') :
    ∀ index, C.Rel (t.insertFrom e total index rows) (u.insertFrom f total index rows') := by
  induction h with
  | nil => exact fun _ => C.pure []
  | cons hrow _ ih =>
    intro index
    refine C.bind (C.handle (C.insert ht hrow) fun failure => ?_) fun kept => ?_
    · -- a failure is reported with the name of the table and goes on
      rw [ht.name_eq]
      exact C.bind (C.emit _) fun _ => C.throw failure
    · exact C.bind (ih (index + 1)) fun rest => C.pure (kept :: rest)

theorem insertMany (ht : t.Akin u) {rows rows' : List Record}
    (h : List.Forall₂ (fun row row' =>
      C.Rel ((t.request (Statement.insert t.name row) false).query e)
        ((u.request (Statement.insert u.name row') false).query f)) rows rows') :
    C.Rel (t.insertMany e rows) (u.insertMany f rows') := by
  unfold Table.insertMany
  rw [ht.batchLimit_eq, h.length_eq]
  split
  · exact C.throw _
  · exact C.insertFrom ht _ h 0

end

/-- Related calls do related things if related requests do. -/
theorem perform {R : Request → Request → Prop}
    (hquery : ∀ r r', R r r' → C.Rel (r.query e) (r'.query f))
    (hexecute : ∀ r r', R r r' → C.Rel (r.execute e) (r'.execute f)) {c c' : Call α}
    (h : c.Related R c') : C.Rel (c.perform e) (c'.perform f) := by
  cases h with
  | selectAs h => exact C.fetch _ (hquery _ _ h)
  | selectOneAs hlimit h => exact C.fetchOne _ hlimit (hquery _ _ h)
  | count h => exact C.count (hquery _ _ h)
  | insert ht h => exact C.insert ht (hquery _ _ h)
  | insertMany ht h => exact C.insertMany ht (h.imp fun _ _ hr => hquery _ _ hr)
  | update hm hm' h =>
    show C.Rel (Table.update _ _ _ _) (Table.update _ _ _ _)
    -- the request knows more of its table than sending it takes
    have hsent := hexecute _ _ h
    rw [Table.execute_request, Table.execute_request] at hsent
    rw [Table.update_of_ok hm, Table.update_of_ok hm']
    exact hsent
  | refused hm hm' =>
    show C.Rel (Table.update _ _ _ _) (Table.update _ _ _ _)
    rw [Table.update_of_error hm, Table.update_of_error hm']
    exact C.throw _
  | delete h =>
    have hsent := hexecute _ _ h
    rw [Table.execute_request, Table.execute_request] at hsent
    exact C.bind hsent fun _ => C.pure ()
  | joinAs h => exact C.fetch _ (hquery _ _ h)
  | joinOneAs hlimit h => exact C.fetchOne _ hlimit (hquery _ _ h)

end Congruence

end Tabular
