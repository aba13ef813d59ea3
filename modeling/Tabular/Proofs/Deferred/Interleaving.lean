import Mathlib.Data.List.Induction
import Mathlib.Logic.Function.Basic
import Tabular.Proofs.Deferred.Session

/-!
# Callers in turns

Several callers with a statement each share one engine. A caller takes three steps: the engine gets
ready, the statement is rendered, the text is sent. Other callers may take steps in between.

- `Errand`, `Stage`, `Traffic`: what callers want, how far they are, and the engine between them.
- `Traffic.step`, `Traffic.run`: a step of one caller, and steps of callers in any order.
- `Traffic.run_query`, `Traffic.run_execute`: a caller who is not interrupted sends a request.
- `Deferred.Overtaken`: a statement that is rendered before a deferred connection comes up and sent
  afterwards.
- `Deferred.styles_sent`: **exactly the statements that are overtaken are sent in the style of a
  connection that is not up, all others in that of the connection.**
-/

namespace Tabular

/-- What a caller wants: a request for rows, or else one for changes. -/
structure Errand where
  request : Request
  rows : Bool

/-- How far a caller is. -/
inductive Stage where
  | waiting
  | ready
  | rendered (text : String)
  | done (answer : Told)

/-- Sends a text for a caller. -/
def Errand.send {σ : Type} (o : Errand) (e : Engine σ) (text : String) (s : σ) : Told × σ :=
  if o.rows then
    let answer := e.all text o.request.statement.params s
    (.answered answer.result answer.events, answer.state)
  else
    let answer := e.run text o.request.statement.params s
    (.changed answer.result answer.events, answer.state)

/-- The engine between callers `κ`, and how far each of them is. -/
structure Traffic (κ σ : Type) where
  engine : σ
  stage : κ → Stage

namespace Traffic

variable {κ σ : Type} [DecidableEq κ]

/-- One caller gets this far and leaves this engine. -/
def move (t : Traffic κ σ) (k : κ) (engine : σ) (stage : Stage) : Traffic κ σ :=
  ⟨engine, Function.update t.stage k stage⟩

section

variable (t : Traffic κ σ) (k : κ) (engine : σ) (stage : Stage)

@[simp] theorem move_engine : (t.move k engine stage).engine = engine := rfl

@[simp] theorem move_stage_self : (t.move k engine stage).stage k = stage := by
  simp only [move, Function.update_self]

theorem move_stage_of_ne {j : κ} (h : j ≠ k) : (t.move k engine stage).stage j = t.stage j := by
  simp only [move, ne_eq, h, not_false_eq_true, Function.update_of_ne]

end

variable (e : Engine σ) (errands : κ → Errand)

/-- The next step of a caller. -/
def step (t : Traffic κ σ) (k : κ) : Traffic κ σ :=
  match t.stage k with
  | .waiting => t.move k (e.prepare t.engine).1 .ready
  | .ready =>
    t.move k t.engine (.rendered ((errands k).request.statement.render (e.placeholder t.engine)))
  | .rendered text =>
    let sent := (errands k).send e text t.engine
    t.move k sent.2 (.done sent.1)
  | .done _ => t

/-- Steps of callers in this order. -/
def run (t : Traffic κ σ) (order : List κ) : Traffic κ σ := order.foldl (step e errands) t

variable {e errands} {t : Traffic κ σ} {k : κ}

theorem run_append (order order' : List κ) :
    t.run e errands (order ++ order') = (t.run e errands order).run e errands order' :=
  List.foldl_append

theorem run_concat (order : List κ) :
    t.run e errands (order ++ [k]) = (t.run e errands order).step e errands k :=
  t.run_append order [k]

theorem step_waiting (h : t.stage k = .waiting) :
    t.step e errands k = t.move k (e.prepare t.engine).1 .ready := by
  simp only [step, h]

theorem step_ready (h : t.stage k = .ready) :
    t.step e errands k = t.move k t.engine
      (.rendered ((errands k).request.statement.render (e.placeholder t.engine))) := by
  simp only [step, h]

theorem step_rendered {text : String} (h : t.stage k = .rendered text) :
    t.step e errands k = t.move k ((errands k).send e text t.engine).2
      (.done ((errands k).send e text t.engine).1) := by
  simp only [step, h]

theorem step_done {answer : Told} (h : t.stage k = .done answer) : t.step e errands k = t := by
  simp only [step, h]

/-- A step of one caller takes no other caller anywhere. -/
theorem stage_step_of_ne {j : κ} (h : j ≠ k) : (t.step e errands k).stage j = t.stage j := by
  cases hstage : t.stage k with
  | waiting => rw [step_waiting hstage, move_stage_of_ne _ _ _ _ h]
  | ready => rw [step_ready hstage, move_stage_of_ne _ _ _ _ h]
  | rendered text => rw [step_rendered hstage, move_stage_of_ne _ _ _ _ h]
  | done answer => rw [step_done hstage]

theorem stage_run_of_notMem {order : List κ} (h : k ∉ order) :
    (t.run e errands order).stage k = t.stage k := by
  induction order generalizing t with
  | nil => rfl
  | cons j order ih =>
    obtain ⟨hne, hrest⟩ := List.ne_and_not_mem_of_not_mem_cons h
    show ((t.step e errands j).run e errands order).stage k = _
    rw [ih hrest, stage_step_of_ne hne]

/-- A caller who is not interrupted has the engine get ready, sends the statement as the engine then
asks for, and has its answer. -/
theorem run_alone (e : Engine σ) (errands : κ → Errand) (h : t.stage k = .waiting) :
    let s := (e.prepare t.engine).1
    let sent := (errands k).send e ((errands k).request.statement.render (e.placeholder s)) s
    (t.run e errands [k, k, k]).engine = sent.2 ∧
      (t.run e errands [k, k, k]).stage k = .done sent.1 := by
  dsimp only
  have hrun : t.run e errands [k, k, k] =
      ((t.step e errands k).step e errands k).step e errands k := rfl
  rw [hrun, step_waiting h, step_ready (move_stage_self ..), step_rendered (move_stage_self ..)]
  simp only [move_engine, move_stage_self, and_self]

/-- A caller who wants rows and is not interrupted makes a request for rows. -/
theorem run_query (hrows : (errands k).rows = true) (h : t.stage k = .waiting) :
    let r := (errands k).request.query e t.engine
    (t.run e errands [k, k, k]).engine = r.state ∧
      ∃ result events, (t.run e errands [k, k, k]).stage k = .done (.answered result events) ∧
        r.result = result.map (List.map Record.decoded) := by
  obtain ⟨hengine, hstage⟩ := run_alone e errands h
  dsimp only
  rw [hengine, hstage, Request.query_apply, Errand.send, if_pos hrows]
  exact ⟨rfl, _, _, rfl, rfl⟩

/-- A caller who wants changes and is not interrupted makes a request for changes. -/
theorem run_execute (hrows : (errands k).rows = false) (h : t.stage k = .waiting) :
    let r := (errands k).request.execute e t.engine
    (t.run e errands [k, k, k]).engine = r.state ∧
      ∃ events, (t.run e errands [k, k, k]).stage k = .done (.changed r.result events) := by
  obtain ⟨hengine, hstage⟩ := run_alone e errands h
  dsimp only
  rw [hengine, hstage, Request.execute_apply, Errand.send, if_neg (by simp [hrows])]
  exact ⟨rfl, _, rfl⟩

end Traffic

/-! ## Callers on a deferred connection -/

/-- An engine that asks for the same placeholders whatever it is sent. -/
structure Engine.KeepsStyle {σ : Type} (e : Engine σ) : Prop where
  run_eq : ∀ text params s, e.placeholder (e.run text params s).state = e.placeholder s
  all_eq : ∀ text params s, e.placeholder (e.all text params s).state = e.placeholder s

theorem Recorder.placeholder_deliver {α : Type} (text : String) (params : List Value)
    (f : Reply → α) (r : Recorder) :
    ((deliver text params >>= fun reply => pure (f reply)) r).state.placeholder =
      r.placeholder := by
  rw [Action.bind_eq_andThen, Action.andThen_apply]
  cases (deliver text params r).result with
  | error e => rfl
  | ok reply => rfl

theorem Recorder.keepsStyle : Recorder.engine.KeepsStyle where
  run_eq text params r := placeholder_deliver text params Reply.changes r
  all_eq text params r := placeholder_deliver text params Reply.rows r

/-- The tries to open a connection with the number of those that succeeded. -/
def Initializer.counted {ι σ : Type} (init : Initializer ι σ) : Initializer (ι × Nat) σ :=
  fun source =>
    match init source.1 with
    | (.ok s, next) => (.ok s, (next, source.2 + 1))
    | (.error e, next) => (.error e, (next, source.2))

namespace Deferred

variable {ι σ κ : Type} {init : Initializer ι σ} {inner : Engine σ}

/-- What a caller with these parameters may make of a deferred connection at its next step: nothing,
a try that fails, a try that succeeds, or a delivery. -/
inductive Turn (inner : Engine σ) (stage : Stage) (params : List Value) :
    Deferred (ι × Nat) (Watched σ) → Deferred (ι × Nat) (Watched σ) → Prop where
  | idle {d} : Turn inner stage params d d
  | failed {d d'} (hdown : d.handle = none) (hdown' : d'.handle = none)
      (hcount : d'.source.2 = d.source.2) : Turn inner stage params d d'
  | up {d d' s} (hdown : d.handle = none) (hup : d'.handle = some ⟨s, [], []⟩)
      (hcount : d'.source.2 = d.source.2 + 1) : Turn inner stage params d d'
  | sent {d d' w w' text} (hstage : stage = .rendered text) (hup : d.handle = some w)
      (hup' : d'.handle = some w') (hsent : w'.sent = w.sent ++ [⟨text, params⟩])
      (hstyle : inner.placeholder w'.inner = inner.placeholder w.inner)
      (hcount : d'.source.2 = d.source.2) : Turn inner stage params d d'

theorem turn_prepare (stage : Stage) (params : List Value) (d : Deferred (ι × Nat) (Watched σ)) :
    Turn inner stage params d ((watchedEngine init.counted inner).prepare d).1 := by
  obtain ⟨⟨source, count⟩, handle, tries⟩ := d
  cases handle with
  | some w =>
    rw [watchedEngine, prepare_up rfl]
    exact .idle
  | none =>
    cases hinit : init source with
    | mk result next =>
      cases result with
      | error failure =>
        have hcounted : init.counted (source, count) = (.error failure, (next, count)) := by
          simp only [Initializer.counted, hinit]
        rw [watchedEngine, prepare_of_error rfl (watched_of_error hcounted)]
        exact .failed rfl rfl rfl
      | ok s =>
        have hcounted : init.counted (source, count) = (.ok s, (next, count + 1)) := by
          simp only [Initializer.counted, hinit]
        rw [watchedEngine, prepare_of_ok rfl (watched_of_ok hcounted)]
        exact .up rfl rfl rfl

/-- A connection that is up gets what is sent. -/
theorem send_up (init : Initializer ι σ) (hinner : inner.KeepsStyle) (o : Errand) (text : String)
    {d : Deferred (ι × Nat) (Watched σ)} {w : Watched σ} (hup : d.handle = some w) :
    ∃ w', (o.send (watchedEngine init.counted inner) text d).2 = { d with handle := some w' } ∧
      w'.sent = w.sent ++ [⟨text, o.request.statement.params⟩] ∧
      inner.placeholder w'.inner = inner.placeholder w.inner := by
  unfold Errand.send watchedEngine
  split
  · rw [all_up hup]
    exact ⟨_, rfl, rfl, hinner.all_eq _ _ _⟩
  · rw [run_up hup]
    exact ⟨_, rfl, rfl, hinner.run_eq _ _ _⟩

/-- Nothing becomes of a connection that is not up. -/
theorem send_down (o : Errand) (text : String) {d : Deferred (ι × Nat) (Watched σ)}
    (hdown : d.handle = none) : (o.send (watchedEngine init.counted inner) text d).2 = d := by
  have hfails : (watchedEngine init.counted inner).Down .uninitialized d := down_of_none hdown
  unfold Errand.send
  split
  · rw [hfails.all_eq]
  · rw [hfails.run_eq]

theorem turn_send (hinner : inner.KeepsStyle) (o : Errand) (text : String)
    (d : Deferred (ι × Nat) (Watched σ)) :
    Turn inner (.rendered text) o.request.statement.params d
      (o.send (watchedEngine init.counted inner) text d).2 := by
  cases hhandle : d.handle with
  | none =>
    rw [send_down o text hhandle]
    exact .idle
  | some w =>
    obtain ⟨w', hstate, hsent, hstyle⟩ := send_up init hinner o text hhandle
    rw [hstate]
    exact .sent rfl hhandle rfl hsent hstyle rfl

/-- A step makes of a deferred connection what its caller may make of it. -/
theorem turn_step [DecidableEq κ] (hinner : inner.KeepsStyle) (errands : κ → Errand)
    (t : Traffic κ (Deferred (ι × Nat) (Watched σ))) (k : κ) :
    Turn inner (t.stage k) (errands k).request.statement.params t.engine
      (t.step (watchedEngine init.counted inner) errands k).engine := by
  cases hstage : t.stage k with
  | waiting =>
    rw [Traffic.step_waiting hstage]
    exact turn_prepare _ _ _
  | ready =>
    rw [Traffic.step_ready hstage]
    exact .idle
  | rendered text =>
    rw [Traffic.step_rendered hstage]
    exact turn_send hinner _ text _
  | done answer =>
    rw [Traffic.step_done hstage]
    exact .idle

/-- The number of tries that succeeded says whether the connection is up. -/
def Counted (d : Deferred (ι × Nat) (Watched σ)) : Prop :=
  d.source.2 = if d.handle.isSome then 1 else 0

/-- A connection that is up stays so, in its style, and forgets nothing that it was sent. -/
def Grows (inner : Engine σ) (d d' : Deferred (ι × Nat) (Watched σ)) : Prop :=
  ∀ w, d.handle = some w → ∃ w', d'.handle = some w' ∧
    inner.placeholder w'.inner = inner.placeholder w.inner ∧ w.sent <+: w'.sent

theorem Grows.refl (d : Deferred (ι × Nat) (Watched σ)) : Grows inner d d :=
  fun w hw => ⟨w, hw, rfl, List.prefix_rfl⟩

theorem Grows.trans {d d' d'' : Deferred (ι × Nat) (Watched σ)} (h : Grows inner d d')
    (h' : Grows inner d' d'') : Grows inner d d'' := by
  intro w hw
  obtain ⟨w', hw', hstyle, hsent⟩ := h w hw
  obtain ⟨w'', hw'', hstyle', hsent'⟩ := h' w' hw'
  exact ⟨w'', hw'', hstyle'.trans hstyle, hsent.trans hsent'⟩

namespace Turn

variable {stage : Stage} {params : List Value} {d d' : Deferred (ι × Nat) (Watched σ)}

theorem counted (h : Turn inner stage params d d') (hd : d.Counted) : d'.Counted := by
  unfold Counted at hd ⊢
  cases h with
  | idle => exact hd
  | failed hdown hdown' hcount => rw [hcount, hd, hdown, hdown']
  | up hdown hup hcount =>
    rw [hcount, hd, hdown, hup]
    rfl
  | sent hstage hup hup' hsent hstyle hcount =>
    rw [hcount, hd, hup, hup']
    rfl

theorem grows (h : Turn inner stage params d d') : Grows inner d d' := by
  intro w hw
  cases h with
  | idle => exact ⟨w, hw, rfl, List.prefix_rfl⟩
  | failed hdown => exact absurd (hdown.symm.trans hw) nofun
  | up hdown => exact absurd (hdown.symm.trans hw) nofun
  | sent hstage hup hup' hsent hstyle hcount =>
    cases hup.symm.trans hw
    exact ⟨_, hup', hstyle, ⟨_, hsent.symm⟩⟩

/-- What a connection has been sent was sent earlier, or was the text of this caller. -/
theorem mem_sent (h : Turn inner stage params d d') {w' : Watched σ} (hw' : d'.handle = some w')
    {delivery : Delivery} (hmem : delivery ∈ w'.sent) :
    ∃ w, d.handle = some w ∧ inner.placeholder w'.inner = inner.placeholder w.inner ∧
      (delivery ∈ w.sent ∨ ∃ text, stage = .rendered text ∧ delivery = ⟨text, params⟩) := by
  cases h with
  | idle => exact ⟨w', hw', rfl, .inl hmem⟩
  | failed hdown hdown' => exact absurd (hdown'.symm.trans hw') nofun
  | up hdown hup =>
    cases hup.symm.trans hw'
    exact absurd hmem List.not_mem_nil
  | sent hstage hup hup' hsent hstyle =>
    cases hup'.symm.trans hw'
    rw [hsent, List.mem_append, List.mem_singleton] at hmem
    exact ⟨_, hup, hstyle, hmem.imp_right fun heq => ⟨_, hstage, heq⟩⟩

end Turn

theorem grows_run [DecidableEq κ] (init : Initializer ι σ) (hinner : inner.KeepsStyle)
    (errands : κ → Errand) (order : List κ) : ∀ t : Traffic κ (Deferred (ι × Nat) (Watched σ)),
      Grows inner t.engine (t.run (watchedEngine init.counted inner) errands order).engine := by
  induction order with
  | nil => exact fun t => .refl t.engine
  | cons k order ih =>
    intro t
    exact (turn_step hinner errands t k).grows.trans (ih _)

section

variable [DecidableEq κ] (init : Initializer ι σ) (inner : Engine σ) (errands : κ → Errand)
  (source : ι)

/-- Callers in this order on a deferred connection that has not been tried yet. -/
def traffic (order : List κ) : Traffic κ (Deferred (ι × Nat) (Watched σ)) :=
  Traffic.run (watchedEngine init.counted inner) errands
    ⟨⟨(source, 0), none, 0⟩, fun _ => .waiting⟩ order

/-- The statement of a caller in this style. -/
def delivered (k : κ) (style : Placeholder) : Delivery :=
  (errands k).request.statement.delivery style

/-- The last step of the caller was to have the statement rendered, while the connection was not
up. -/
def Early (k : κ) (order : List κ) : Prop :=
  ∃ before between, order = before ++ k :: between ∧ k ∉ between ∧
    (traffic init inner errands source before).stage k = .ready ∧
    (traffic init inner errands source before).engine.handle = none

/-- The connection came up between the rendering of a statement and its sending. -/
def Overtaken (k : κ) (order : List κ) : Prop :=
  ∃ before after, order = before ++ k :: after ∧ Early init inner errands source k before ∧
    (traffic init inner errands source before).engine.isReady = true

variable {init inner errands source} {k j : κ} {order : List κ}

theorem traffic_append (order order' : List κ) :
    traffic init inner errands source (order ++ order') =
      (traffic init inner errands source order).run (watchedEngine init.counted inner) errands
        order' :=
  Traffic.run_append order order'

theorem traffic_concat (order : List κ) (k : κ) :
    traffic init inner errands source (order ++ [k]) =
      (traffic init inner errands source order).step (watchedEngine init.counted inner) errands k :=
  Traffic.run_concat order

theorem Early.concat (h : Early init inner errands source k order) (hne : k ≠ j) :
    Early init inner errands source k (order ++ [j]) := by
  obtain ⟨before, between, rfl, hbetween, hstage, hdown⟩ := h
  refine ⟨before, between ++ [j], by simp, ?_, hstage, hdown⟩
  simp [hbetween, hne]

theorem Overtaken.concat (h : Overtaken init inner errands source k order) (j : κ) :
    Overtaken init inner errands source k (order ++ [j]) := by
  obtain ⟨before, after, rfl, hearly, hup⟩ := h
  exact ⟨before, after ++ [j], by simp, hearly, hup⟩

theorem counted_traffic (init : Initializer ι σ) (hinner : inner.KeepsStyle)
    (errands : κ → Errand) (source : ι) (order : List κ) :
    (traffic init inner errands source order).engine.Counted := by
  induction order using List.reverseRecOn with
  | nil => rfl
  | append_singleton order k ih =>
    rw [traffic_concat]
    exact (turn_step hinner errands _ k).counted ih

/-- A statement that was rendered early is a text in the style of a connection that is not up. -/
theorem Early.stage_eq (h : Early init inner errands source k order) :
    (traffic init inner errands source order).stage k =
      .rendered ((errands k).request.statement.render .question) := by
  obtain ⟨before, between, rfl, hbetween, hstage, hdown⟩ := h
  have horder : before ++ k :: between = (before ++ [k]) ++ between := by simp
  rw [horder, traffic_append, Traffic.stage_run_of_notMem hbetween, traffic_concat,
    Traffic.step_ready hstage, Traffic.move_stage_self]
  simp only [watchedEngine, engine, hdown, Option.map_none, Option.getD_none]

/-- A statement that waits to be sent was rendered early, or in the style of the connection. -/
theorem rendered_traffic (hinner : inner.KeepsStyle) (order : List κ) :
    ∀ k text, (traffic init inner errands source order).stage k = .rendered text →
      Early init inner errands source k order ∨
        ∃ w, (traffic init inner errands source order).engine.handle = some w ∧
          text = (errands k).request.statement.render (inner.placeholder w.inner) := by
  induction order using List.reverseRecOn with
  | nil => exact fun k text h => nomatch h
  | append_singleton order j ih =>
    intro k text hstage
    rw [traffic_concat] at hstage ⊢
    by_cases hkj : k = j
    · subst hkj
      cases hlast : (traffic init inner errands source order).stage k with
      | ready =>
        rw [Traffic.step_ready hlast, Traffic.move_stage_self] at hstage
        cases hstage
        rw [Traffic.step_ready hlast, Traffic.move_engine]
        cases hhandle : (traffic init inner errands source order).engine.handle with
        | none => exact .inl ⟨order, [], rfl, List.not_mem_nil, hlast, hhandle⟩
        | some w =>
          refine .inr ⟨w, rfl, ?_⟩
          rw [watchedEngine, placeholder_up hhandle]
          rfl
      | waiting =>
        rw [Traffic.step_waiting hlast, Traffic.move_stage_self] at hstage
        cases hstage
      | rendered text =>
        rw [Traffic.step_rendered hlast, Traffic.move_stage_self] at hstage
        cases hstage
      | done answer =>
        rw [Traffic.step_done hlast, hlast] at hstage
        cases hstage
    · rw [Traffic.stage_step_of_ne hkj] at hstage
      rcases ih k text hstage with hearly | ⟨w, hw, htext⟩
      · exact .inl (hearly.concat hkj)
      · obtain ⟨w', hw', hstyle, -⟩ := (turn_step hinner errands _ j).grows w hw
        exact .inr ⟨w', hw', hstyle ▸ htext⟩

/-- What the connection was sent is in its style, or was overtaken. -/
theorem sent_traffic (hinner : inner.KeepsStyle) (order : List κ) :
    ∀ w, (traffic init inner errands source order).engine.handle = some w → ∀ d ∈ w.sent, ∃ k,
      d = delivered errands k (inner.placeholder w.inner) ∨
        d = delivered errands k .question ∧ Overtaken init inner errands source k order := by
  induction order using List.reverseRecOn with
  | nil => exact fun w h => nomatch h
  | append_singleton order j ih =>
    intro w' hw' d hd
    rw [traffic_concat] at hw'
    obtain ⟨w, hw, hstyle, hmem | ⟨text, hstage, rfl⟩⟩ :=
      (turn_step hinner errands _ j).mem_sent hw' hd
    · rw [hstyle]
      obtain ⟨k, hk⟩ := ih w hw d hmem
      exact ⟨k, hk.imp_right fun hearly => ⟨hearly.1, hearly.2.concat j⟩⟩
    · refine ⟨j, ?_⟩
      rw [hstyle]
      rcases rendered_traffic hinner order j text hstage with hearly | ⟨v, hv, rfl⟩
      · -- the text was rendered early, and the connection is up now
        cases hstage.symm.trans hearly.stage_eq
        refine .inr ⟨rfl, order, [], rfl, hearly, ?_⟩
        rw [isReady, hw]
        rfl
      · cases hw.symm.trans hv
        exact .inl rfl

/-- Whatever was overtaken was sent in the style of a connection that is not up. -/
theorem Overtaken.sent (hinner : inner.KeepsStyle)
    (h : Overtaken init inner errands source k order) :
    ∃ w, (traffic init inner errands source order).engine.handle = some w ∧
      delivered errands k .question ∈ w.sent := by
  obtain ⟨before, after, rfl, hearly, hup⟩ := h
  obtain ⟨w, hw⟩ := Option.isSome_iff_exists.mp hup
  -- the step of the caller sends the text, and the later steps leave it there
  obtain ⟨w', hstate, hsent, -⟩ := send_up init hinner (errands k) _ hw
  have horder : before ++ k :: after = (before ++ [k]) ++ after := by simp
  have hmem : delivered errands k .question ∈ w'.sent := by
    rw [hsent]
    exact List.mem_append_right _ (List.mem_singleton.mpr rfl)
  have hup' : (traffic init inner errands source (before ++ [k])).engine.handle = some w' := by
    rw [traffic_concat, Traffic.step_rendered hearly.stage_eq, Traffic.move_engine, hstate]
  obtain ⟨w'', hw'', -, hgrown⟩ := grows_run init hinner errands after _ w' hup'
  rw [horder, traffic_append]
  exact ⟨w'', hw'', hgrown.subset hmem⟩

/-- **What a deferred connection hands on is in the style of the connection, unless that came up
between the rendering of a statement and its sending**; then the statement is sent as it was
rendered, in the style of a connection that is not up. In whatever order the callers take their
steps, at most one try succeeds. -/
theorem styles_sent (init : Initializer ι σ) (inner : Engine σ) (hinner : inner.KeepsStyle)
    (errands : κ → Errand) (source : ι) (order : List κ) :
    (traffic init inner errands source order).engine.source.2 ≤ 1 ∧
      (∀ w, (traffic init inner errands source order).engine.handle = some w →
        ∀ d ∈ w.sent, ∃ k, d = delivered errands k (inner.placeholder w.inner) ∨
          d = delivered errands k .question ∧ Overtaken init inner errands source k order) ∧
      ∀ k, Overtaken init inner errands source k order →
        ∃ w, (traffic init inner errands source order).engine.handle = some w ∧
          delivered errands k .question ∈ w.sent := by
  refine ⟨?_, sent_traffic hinner order, fun k h => h.sent hinner⟩
  have hcounted := counted_traffic init hinner errands source order
  unfold Counted at hcounted
  rw [hcounted]
  split <;> omega

end

/-- Two deletions. -/
def sampledErrands (k : Bool) : Errand :=
  let t : Table Record := ⟨"scores", {}, .ok⟩
  let p : Predicate String := .all (Filter.empty.equals "id" (.integer (if k then 8 else 7)))
  ⟨t.request (Statement.delete t.name p) false, false⟩

/-- The try of the first caller fails and its statement is rendered; the second caller brings the
connection up and has its statement sent; the first statement is sent. -/
def sampledOrder : List Bool := [false, false, true, true, true, false]

theorem styles_sent_sampled :
    Recorder.engine.KeepsStyle ∧
      Overtaken sampledInitializer Recorder.engine sampledErrands 0 false sampledOrder ∧
      ∃ w, (traffic sampledInitializer Recorder.engine sampledErrands 0
          sampledOrder).engine.handle = some w ∧
        delivered sampledErrands false .question ∈ w.sent :=
  have hovertaken :
      Overtaken sampledInitializer Recorder.engine sampledErrands 0 false sampledOrder :=
    ⟨[false, false, true, true, true], [], rfl,
      ⟨[false], [true, true, true], rfl, by decide, rfl, rfl⟩, rfl⟩
  ⟨Recorder.keepsStyle, hovertaken,
    (styles_sent sampledInitializer Recorder.engine Recorder.keepsStyle sampledErrands 0
      sampledOrder).2.2 false hovertaken⟩

/-- A connection with numbered placeholders is sent a question mark. -/
theorem styles_sent_mixed :
    (traffic sampledInitializer Recorder.engine sampledErrands 0 sampledOrder).engine.handle.map
        (fun w => (w.inner.placeholder, w.sent.map Delivery.text)) =
      some (.numbered, ["DELETE FROM scores WHERE id = $1", "DELETE FROM scores WHERE id = ?"]) ∧
    ∀ k, (delivered sampledErrands k .numbered).text = "DELETE FROM scores WHERE id = $1" := by
  decide +kernel

end Deferred

end Tabular
