import Tabular.Proofs.Accessor.Exchange
import Tabular.Proofs.Statement.Alignment

/-!
# What calls deliver

The statements that reach an engine, and how their texts and parameters fit together.

- `Sends`: an action sends some of the given statements, the first ones, and nothing else.
- `Call.sends`: a call sends the first ones of its statements and nothing else.
- `Call.placeholders_aligned`: **placeholders and parameters fit together in every statement that a
  call can send**, and the parameters are the scalars of its descriptors in their order.
-/

namespace Tabular

/-- The action sends the first ones of these statements, each in some style. -/
def Sends {σ α : Type} (x : Action (Watched σ) α) (as : List Fragment) : Prop :=
  ∀ w, ∃ styles, (x w).state.sent = w.sent ++ List.zipWith Fragment.delivery as styles

/-- Exchanges about the first ones of these statements send them, each in its style. -/
theorem map_delivery_eq_zipWith {xs : List Exchange} : ∀ {as : List Fragment},
    List.Forall₂ (fun x a => x.delivery = a.delivery x.style) xs (as.take xs.length) →
    xs.map Exchange.delivery = List.zipWith Fragment.delivery as (xs.map Exchange.style) := by
  induction xs with
  | nil => exact fun _ => List.zipWith_nil_right.symm
  | cons x xs ih =>
    intro as h
    cases as with
    | nil => cases h
    | cons a as =>
      rw [List.length_cons, List.take_succ_cons] at h
      cases h with
      | cons hfirst hrest =>
        rw [List.map_cons, List.map_cons, List.zipWith_cons_cons, hfirst, ih hrest]

/-- A call sends the first ones of its statements and nothing else. -/
theorem Call.sends {σ α : Type} (e : Engine σ) (c : Call α) :
    Sends (c.perform e.watched) (c.statements.map Prod.fst) := by
  intro w
  obtain ⟨xs, haccount⟩ := c.account e w
  refine ⟨xs.map Exchange.style, ?_⟩
  rw [haccount.sent_eq, map_delivery_eq_zipWith haccount.statements]

/-! ## Alignment -/

theorem Join.unmarked_clause {ρ τ : Type} (j : Join ρ τ)
    (h : ∀ n ∈ j.names, Fragment.Unmarked n) :
    Fragment.Unmarked j.clause.text ∧ Fragment.Unmarked j.clause.table := by
  have hprimary : Fragment.Unmarked j.primary.name := h _ (by simp [names])
  have hsecondary : Fragment.Unmarked j.secondary.name := h _ (by simp [names])
  have hcolumn : Fragment.Unmarked j.primaryColumn := h _ (by simp [names])
  have hcolumn' : Fragment.Unmarked j.secondaryColumn := h _ (by simp [names])
  have hdot : Fragment.Unmarked "." := by decide
  refine ⟨?_, hsecondary⟩
  simp only [clause, kind, qualified, Fragment.unmarked_append]
  refine ⟨⟨⟨⟨⟨⟨by decide, by decide⟩, hsecondary⟩, by decide⟩, ?_⟩, by decide⟩, ?_⟩
  · exact ⟨⟨hprimary, hdot⟩, hcolumn⟩
  · exact ⟨⟨hsecondary, hdot⟩, hcolumn'⟩

/-- Every statement of a call carries the scalars of its descriptors. -/
theorem Call.carries_statements {α : Type} (c : Call α)
    (h : ∀ n ∈ c.names, Fragment.Unmarked n) :
    ∀ a ∈ c.statements, Fragment.Carries a.1 a.2 := by
  cases c with
  | selectAs t decode p q =>
    obtain ⟨ht, hrest⟩ := List.forall_mem_cons.mp h
    obtain ⟨hp, hq⟩ := List.forall_mem_append.mp hrest
    refine List.forall_mem_singleton.mpr (Statement.carries_select ht ?_ p hp q hq)
    nofun
  | selectOneAs t decode p q =>
    obtain ⟨ht, hrest⟩ := List.forall_mem_cons.mp h
    obtain ⟨hp, hq⟩ := List.forall_mem_append.mp hrest
    refine List.forall_mem_singleton.mpr (Statement.carries_select ht ?_ p hp q.limited hq)
    nofun
  | count t p q =>
    obtain ⟨ht, hp⟩ := List.forall_mem_cons.mp h
    exact List.forall_mem_singleton.mpr (Statement.carries_count ht p hp)
  | insert t row =>
    obtain ⟨ht, hrow⟩ := List.forall_mem_cons.mp h
    exact List.forall_mem_singleton.mpr (Statement.carries_insert ht row hrow)
  | insertMany t rows =>
    obtain ⟨ht, hrows⟩ := List.forall_mem_cons.mp h
    intro a ha
    obtain ⟨row, hrow, rfl⟩ := List.mem_map.mp ha
    exact Statement.carries_insert ht row fun n hn => hrows n (List.mem_flatMap.mpr ⟨row, hrow, hn⟩)
  | update t m p =>
    obtain ⟨ht, hrest⟩ := List.forall_mem_cons.mp h
    obtain ⟨hm, hp⟩ := List.forall_mem_append.mp hrest
    intro a ha
    rw [statements] at ha
    split at ha
    · -- the operands of the assignments come before those of the conditions
      next set hset =>
      rw [List.mem_singleton.mp ha]
      exact Statement.carries_update ht m hm hset p hp
    · cases ha
  | delete t p =>
    obtain ⟨ht, hp⟩ := List.forall_mem_cons.mp h
    exact List.forall_mem_singleton.mpr (Statement.carries_delete ht p hp)
  | joinAs j decode p q =>
    obtain ⟨hj, hrest⟩ := List.forall_mem_append.mp h
    obtain ⟨hp, hq⟩ := List.forall_mem_append.mp hrest
    have hprimary : Fragment.Unmarked j.primary.name := hj _ (by simp [Join.names])
    refine List.forall_mem_singleton.mpr (Statement.carries_select hprimary ?_ p hp q hq)
    rintro _ ⟨⟩
    exact j.unmarked_clause hj
  | joinOneAs j decode p q =>
    obtain ⟨hj, hrest⟩ := List.forall_mem_append.mp h
    obtain ⟨hp, hq⟩ := List.forall_mem_append.mp hrest
    have hprimary : Fragment.Unmarked j.primary.name := hj _ (by simp [Join.names])
    refine List.forall_mem_singleton.mpr (Statement.carries_select hprimary ?_ p hp q.limited hq)
    rintro _ ⟨⟩
    exact j.unmarked_clause hj

/-- **Placeholders and parameters fit together** in every statement that a call can send, whatever
the engine does: a statement that reaches an engine is one of those of the call in one of the two
styles, and its placeholders, read out of its text, stand for its parameters one after another.
The parameters are the scalars of the descriptors in the form that they are kept in. -/
theorem Call.placeholders_aligned {α : Type} (c : Call α) (h : ∀ n ∈ c.names, Fragment.Unmarked n) :
    (∀ a ∈ c.statements, Fragment.Aligned a.1 a.2) ∧
      ∀ {σ : Type} (e : Engine σ) (s : σ), ∃ styles,
        (c.perform e.watched ⟨s, [], []⟩).state.sent =
          List.zipWith (fun a style => a.1.delivery style) c.statements styles := by
  constructor
  · intro a ha
    exact (c.carries_statements h a ha).aligned
  · intro σ e s
    obtain ⟨styles, hsent⟩ := c.sends e ⟨s, [], []⟩
    refine ⟨styles, ?_⟩
    rw [hsent, List.nil_append, List.zipWith_map_left]

/-- An update whose values look like placeholders. -/
def sampledUpdate : Call Nat :=
  .update (⟨"users", {}, .ok⟩ : Table Record)
    ((Mutation.empty.set "name" (.text "$7?")).operate "visits" .increment (.integer 1))
    ((Filter.empty.equals "id" (.integer 3)).or (Filter.empty.anyOf "tag" [.text "?", .null]))

theorem Call.placeholders_aligned_sampledUpdate :
    (∀ n ∈ sampledUpdate.names, Fragment.Unmarked n) ∧
      sampledUpdate.statements.map (fun a => a.1.render .numbered) =
        ["UPDATE users SET name = $1, visits = visits + $2 " ++
          "WHERE (id = $3) OR ((tag = $4 OR tag = $5))"] ∧
      (∀ a ∈ sampledUpdate.statements, Fragment.Aligned a.1 a.2) ∧
      ∃ styles,
        (sampledUpdate.perform Recorder.engine.watched ⟨⟨.numbered, [], []⟩, [], []⟩).state.sent =
          List.zipWith (fun a style => a.1.delivery style) sampledUpdate.statements styles :=
  have hnames : ∀ n ∈ sampledUpdate.names, Fragment.Unmarked n := by decide +kernel
  ⟨hnames, by decide +kernel, (sampledUpdate.placeholders_aligned hnames).1,
    (sampledUpdate.placeholders_aligned hnames).2 Recorder.engine ⟨.numbered, [], []⟩⟩

end Tabular
