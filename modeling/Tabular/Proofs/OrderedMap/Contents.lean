import Mathlib.Data.List.Forall2
import Tabular.Proofs.OrderedMap.Alterations

/-!
# Entries of maps with different names

What the ways to write to a map do to its entries, where no two of them have the same name.

- `OrderedMap.entries_insert_of_mem`, `OrderedMap.entries_erase`: **an insertion replaces the value
  of the one entry of its name, and removal leaves the entries of other names**, each in its place.
- `OrderedMap.get?_erase`: removing a name changes what that name has, and nothing else.
- `OrderedMap.mem_entries_iff`: the entries are what the names are looked up with.
- `OrderedMap.mapM_eq`: the names stay when values are replaced, whatever else the action does.
- `OrderedMap.tryMap_eq_ok_iff`, `OrderedMap.tryMap_eq_error_iff`: all values are replaced, or the
  first that cannot be is the failure.
-/

namespace Tabular

/-! ## Actions that fail -/

section

variable {α β ε : Type}

theorem map_eq_ok_iff {x : Except ε α} {g : α → β} {b : β} :
    x.map g = .ok b ↔ ∃ a, x = .ok a ∧ g a = b := by
  cases x with
  | error e => exact ⟨nofun, nofun⟩
  | ok a => exact ⟨fun h => ⟨a, rfl, Except.ok.inj h⟩, by rintro ⟨_, ⟨⟩, rfl⟩; rfl⟩

theorem map_eq_error_iff {x : Except ε α} {g : α → β} {e : ε} :
    x.map g = .error e ↔ x = .error e := by
  cases x with
  | error e' => exact ⟨by rintro ⟨⟩; rfl, by rintro ⟨⟩; rfl⟩
  | ok a => exact ⟨nofun, nofun⟩

variable {f : α → Except ε β}

/-- A list is mapped if every item is. -/
theorem mapM_eq_ok_iff {as : List α} {bs : List β} :
    as.mapM f = .ok bs ↔ List.Forall₂ (fun a b => f a = .ok b) as bs := by
  induction as generalizing bs with
  | nil =>
    rw [List.forall₂_nil_left_iff]
    exact ⟨by rintro ⟨⟩; rfl, by rintro rfl; rfl⟩
  | cons a as ih =>
    rw [List.mapM_cons, List.forall₂_cons_left_iff]
    cases ha : f a with
    | error e =>
      constructor
      · nofun
      · rintro ⟨b, bs, hb, -⟩
        cases hb
    | ok b =>
      cases has : as.mapM f with
      | error e =>
        constructor
        · nofun
        · rintro ⟨b, bs, -, hbs, -⟩
          rw [← ih, has] at hbs
          cases hbs
      | ok bs =>
        constructor
        · rintro ⟨⟩
          exact ⟨b, bs, rfl, ih.mp has, rfl⟩
        · rintro ⟨b', bs', hb, hbs, rfl⟩
          rw [← ih, has] at hbs
          cases hb
          cases hbs
          rfl

/-- A list fails to be mapped with the failure of the first item that does. -/
theorem mapM_eq_error_iff {as : List α} {e : ε} :
    as.mapM f = .error e ↔ ∃ before a after, as = before ++ a :: after ∧
      (∀ x ∈ before, ∃ b, f x = .ok b) ∧ f a = .error e := by
  constructor
  · intro h
    induction as with
    | nil => cases h
    | cons a as ih =>
      rw [List.mapM_cons] at h
      cases ha : f a with
      | error e' =>
        rw [ha] at h
        cases h
        exact ⟨[], a, as, rfl, fun x hx => absurd hx List.not_mem_nil, ha⟩
      | ok b =>
        rw [ha] at h
        cases has : as.mapM f with
        | ok bs =>
          rw [has] at h
          cases h
        | error e' =>
          rw [has] at h
          cases h
          obtain ⟨before, x, after, rfl, hbefore, hx⟩ := ih has
          refine ⟨a :: before, x, after, rfl, fun y hy => ?_, hx⟩
          rcases List.mem_cons.mp hy with rfl | hy
          · exact ⟨b, ha⟩
          · exact hbefore y hy
  · rintro ⟨before, a, after, rfl, hbefore, ha⟩
    induction before with
    | nil =>
      rw [List.nil_append, List.mapM_cons, ha]
      rfl
    | cons x before ih =>
      obtain ⟨b, hb⟩ := hbefore x List.mem_cons_self
      rw [List.cons_append, List.mapM_cons, hb,
        ih fun y hy => hbefore y (List.mem_cons_of_mem x hy)]
      rfl

/-- Steps fail with the failure of the first of them that does. -/
theorem foldlM_eq_error_iff {g : β → α → Except ε β} {as : List α} {b : β} {e : ε} :
    as.foldlM g b = .error e ↔ ∃ before a after c, as = before ++ a :: after ∧
      before.foldlM g b = .ok c ∧ g c a = .error e := by
  constructor
  · intro h
    induction as generalizing b with
    | nil => cases h
    | cons a as ih =>
      rw [List.foldlM_cons] at h
      cases ha : g b a with
      | error e' =>
        rw [ha] at h
        cases h
        exact ⟨[], a, as, b, rfl, rfl, ha⟩
      | ok d =>
        rw [ha] at h
        obtain ⟨before, x, after, c, rfl, hbefore, hx⟩ := ih h
        refine ⟨a :: before, x, after, c, rfl, ?_, hx⟩
        rw [List.foldlM_cons, ha]
        exact hbefore
  · rintro ⟨before, a, after, c, rfl, hbefore, ha⟩
    rw [List.foldlM_append, hbefore]
    show (a :: after).foldlM g c = _
    rw [List.foldlM_cons, ha]
    rfl

theorem foldlM_concat (g : β → α → Except ε β) (b : β) (as : List α) (a : α) :
    (as ++ [a]).foldlM g b = (as.foldlM g b).bind (g · a) := by
  rw [List.foldlM_append]
  refine congrArg (Except.bind _) ?_
  funext c
  show (g c a).bind pure = g c a
  cases g c a <;> rfl

end

namespace OrderedMap

variable {κ α : Type} [Named κ]

/-! ## Look-up -/

theorem mem_names_of_mem {m : OrderedMap κ α} {e : κ × α} (he : e ∈ m.entries) :
    Named.name e.1 ∈ m.names :=
  List.mem_map_of_mem he

theorem contains_iff {m : OrderedMap κ α} {name : String} :
    m.contains name = true ↔ name ∈ m.names := by
  rw [contains, Option.isSome_iff_exists]
  constructor
  · rintro ⟨a, ha⟩
    obtain ⟨e, he, rfl, -⟩ := exists_mem_of_get? ha
    exact mem_names_of_mem he
  · intro h
    obtain ⟨e, he, rfl⟩ := List.mem_map.mp h
    cases hget : m.get? (Named.name e.1) with
    | some a => exact ⟨a, rfl⟩
    | none =>
      have hfind := List.find?_eq_none.mp (Option.map_eq_none_iff.mp hget) e he
      exact absurd (decide_eq_true rfl) hfind

/-! ## Insertion -/

/-- A value that is inserted for a name that is there replaces the one of its entry. -/
theorem entries_insert_of_mem {m : OrderedMap κ α} (hnodup : m.names.Nodup) {key : κ}
    (h : Named.name key ∈ m.names) (a : α) :
    (m.insert key a).entries =
      m.entries.map fun e => if Named.name e.1 = Named.name key then (e.1, a) else e := by
  obtain ⟨es⟩ := m
  show alterEntries key (fun _ => a) es = _
  induction es with
  | nil => cases h
  | cons e es ih =>
    rw [names_mk_cons, List.nodup_cons] at hnodup
    rw [names_mk_cons, List.mem_cons] at h
    rw [alterEntries, List.map_cons]
    by_cases he : Named.name e.1 = Named.name key
    · -- no other entry has the name
      have hrest : ∀ x ∈ es, (if Named.name x.1 = Named.name key then (x.1, a) else x) = x := by
        intro x hx
        refine if_neg fun hname => hnodup.1 ?_
        rw [he, ← hname]
        exact mem_names_of_mem (m := ⟨es⟩) hx
      rw [if_pos he, if_pos he, List.map_congr_left hrest, List.map_id']
    · rw [if_neg he, if_neg he, ih hnodup.2 (h.resolve_left (Ne.symm he))]

/-! ## Removal -/

/-- Removal leaves the entries of other names. -/
theorem entries_erase {m : OrderedMap κ α} (h : m.names.Nodup) (name : String) :
    (m.erase name).entries = m.entries.filter fun e => Named.name e.1 ≠ name := by
  obtain ⟨es⟩ := m
  show eraseEntries name es = _
  induction es with
  | nil => rfl
  | cons e es ih =>
    rw [names_mk_cons, List.nodup_cons] at h
    rw [eraseEntries]
    by_cases he : Named.name e.1 = name
    · have hrest : ∀ x ∈ es, decide (Named.name x.1 ≠ name) = true := by
        intro x hx
        refine decide_eq_true fun hname => h.1 ?_
        rw [he, ← hname]
        exact mem_names_of_mem (m := ⟨es⟩) hx
      rw [if_pos he, List.filter_cons_of_neg (by simp [he]), List.filter_eq_self.mpr hrest]
    · rw [if_neg he, List.filter_cons_of_pos (by simp [he]), ih h.2]

theorem names_erase {m : OrderedMap κ α} (h : m.names.Nodup) (name : String) :
    (m.erase name).names = m.names.filter fun n => n ≠ name := by
  rw [names, entries_erase h, names, List.filter_map]
  rfl

/-- Removing a name changes what that name has, and nothing else. -/
theorem get?_erase {m : OrderedMap κ α} (h : m.names.Nodup) (removed name : String) :
    (m.erase removed).get? name = if removed = name then none else m.get? name := by
  unfold get?
  rw [entries_erase h, List.find?_filter]
  by_cases hname : removed = name
  · subst hname
    simp
  · have hkeep : ∀ e : κ × α, decide (decide (Named.name e.1 ≠ removed) = true ∧
        decide (Named.name e.1 = name) = true) = decide (Named.name e.1 = name) := by
      intro e
      by_cases he : Named.name e.1 = name
      · simp [he, Ne.symm hname]
      · simp [he]
    simp only [hkeep, if_neg hname]

/-! ## Entries -/

/-- The entries are what the names are looked up with. -/
theorem mem_entries_iff {m : OrderedMap String α} (h : m.names.Nodup) {e : String × α} :
    e ∈ m.entries ↔ m.get? e.1 = some e.2 := by
  constructor
  · exact get?_of_mem h
  · intro hget
    obtain ⟨x, hx, hname, hvalue⟩ := exists_mem_of_get? hget
    rwa [← Prod.ext hname hvalue]

/-- Maps are equal if they have the same names in the same order, with equal values. -/
theorem beq_iff [BEq α] {m n : OrderedMap String α} (hm : m.names.Nodup) (hn : n.names.Nodup) :
    (m == n) = true ↔ m.names = n.names ∧ ∀ name, (m.get? name == n.get? name) = true := by
  obtain ⟨es⟩ := m
  obtain ⟨fs⟩ := n
  show (es == fs) = true ↔ _
  induction es generalizing fs with
  | nil =>
    cases fs with
    | nil => exact iff_of_true rfl ⟨rfl, fun _ => rfl⟩
    | cons f fs => exact iff_of_false nofun fun h => nomatch h.1
  | cons e es ih =>
    cases fs with
    | nil => exact iff_of_false nofun fun h => nomatch h.1
    | cons f fs =>
      obtain ⟨k, a⟩ := e
      obtain ⟨l, b⟩ := f
      rw [names_mk_cons, List.nodup_cons] at hm hn
      have hcons : (((k, a) :: es) == ((l, b) :: fs)) = (((k == l) && (a == b)) && (es == fs)) :=
        rfl
      rw [hcons, Bool.and_eq_true, Bool.and_eq_true, beq_iff_eq, ih hm.2 fs hn.2, names_mk_cons,
        names_mk_cons, List.cons.injEq]
      simp only [get?_mk_cons, name_string] at hm hn ⊢
      constructor
      · rintro ⟨⟨rfl, hab⟩, hnames, hget⟩
        refine ⟨⟨rfl, hnames⟩, fun name => ?_⟩
        by_cases hname : k = name
        · rw [if_pos hname, if_pos hname, Option.some_beq_some]
          exact hab
        · rw [if_neg hname, if_neg hname]
          exact hget name
      · rintro ⟨⟨rfl, hnames⟩, hget⟩
        have hab := hget k
        rw [if_pos rfl, if_pos rfl, Option.some_beq_some] at hab
        refine ⟨⟨rfl, hab⟩, hnames, fun name => ?_⟩
        by_cases hname : k = name
        · subst hname
          -- neither rest has the name of the first entries
          rw [get?_eq_none hm.1, get?_eq_none hn.1]
          rfl
        · have hrest := hget name
          rwa [if_neg hname, if_neg hname] at hrest

end OrderedMap

/-! ## Values replaced -/

namespace OrderedMap

section

variable {κ α β ε : Type} {m : OrderedMap κ α}

/-- The keys stay when values are replaced, whatever else the action does. -/
theorem mapM_eq {μ : Type → Type} [Monad μ] [LawfulMonad μ] (m : OrderedMap κ α) (f : α → μ β) :
    m.mapM f = (fun bs => ⟨(m.entries.map Prod.fst).zip bs⟩) <$>
      (m.entries.map Prod.snd).mapM f := by
  obtain ⟨es⟩ := m
  have hentries : (es.mapM fun e => do return (e.1, ← f e.2)) =
      (fun bs => (es.map Prod.fst).zip bs) <$> (es.map Prod.snd).mapM f := by
    induction es with
    | nil => simp
    | cons e es ih =>
      simp only [List.map_cons, List.mapM_cons, ih, map_eq_pure_bind, bind_assoc, pure_bind,
        List.zip_cons_cons]
  unfold mapM
  rw [hentries]
  simp

/-- An entry with its value replaced. -/
def tryEntry (f : α → Except ε β) (e : κ × α) : Except ε (κ × β) := (f e.2).map fun b => (e.1, b)

theorem tryMap_eq (m : OrderedMap κ α) (f : α → Except ε β) :
    m.tryMap f = (m.entries.mapM (tryEntry f)).map OrderedMap.mk := by
  have hentry : (fun e : κ × α => (do return (e.1, ← f e.2) : Except ε (κ × β))) =
      tryEntry f := by
    funext e
    unfold tryEntry
    cases f e.2 <;> rfl
  unfold tryMap mapM
  rw [hentry]
  cases m.entries.mapM (tryEntry f) <;> rfl

/-- All values are replaced, and nothing else is. -/
theorem tryMap_eq_ok_iff {f : α → Except ε β} {n : OrderedMap κ β} :
    m.tryMap f = .ok n ↔
      List.Forall₂ (fun e e' => e'.1 = e.1 ∧ f e.2 = .ok e'.2) m.entries n.entries := by
  have hentry : ∀ (e : κ × α) (e' : κ × β),
      tryEntry f e = .ok e' ↔ e'.1 = e.1 ∧ f e.2 = .ok e'.2 := by
    intro e e'
    rw [tryEntry, map_eq_ok_iff]
    constructor
    · rintro ⟨b, hb, rfl⟩
      exact ⟨rfl, hb⟩
    · rintro ⟨hkey, hvalue⟩
      exact ⟨e'.2, hvalue, hkey ▸ rfl⟩
  simp only [← hentry, ← mapM_eq_ok_iff]
  rw [tryMap_eq, map_eq_ok_iff]
  constructor
  · rintro ⟨es, hes, rfl⟩
    exact hes
  · intro h
    exact ⟨n.entries, h, rfl⟩

/-- The failure is that of the first value that cannot be replaced. -/
theorem tryMap_eq_error_iff {f : α → Except ε β} {failure : ε} :
    m.tryMap f = .error failure ↔ ∃ before e after, m.entries = before ++ e :: after ∧
      (∀ x ∈ before, ∃ b, f x.2 = .ok b) ∧ f e.2 = .error failure := by
  have hok : ∀ e : κ × α, (∃ e', tryEntry f e = .ok e') ↔ ∃ b, f e.2 = .ok b := by
    intro e
    constructor
    · rintro ⟨e', h⟩
      obtain ⟨b, hb, -⟩ := map_eq_ok_iff.mp h
      exact ⟨b, hb⟩
    · rintro ⟨b, hb⟩
      exact ⟨(e.1, b), map_eq_ok_iff.mpr ⟨b, hb, rfl⟩⟩
  have herror : ∀ e : κ × α, tryEntry f e = .error failure ↔ f e.2 = .error failure :=
    fun e => map_eq_error_iff
  rw [tryMap_eq, map_eq_error_iff, mapM_eq_error_iff]
  simp only [hok, herror]

theorem exists_tryMap_iff {f : α → Except ε β} :
    (∃ n, m.tryMap f = .ok n) ↔ ∀ e ∈ m.entries, ∃ b, f e.2 = .ok b := by
  constructor
  · rintro ⟨n, h⟩ e he
    have hentries := tryMap_eq_ok_iff.mp h
    obtain ⟨i, rfl⟩ := List.mem_iff_get.mp he
    have hi : i.1 < n.entries.length := hentries.length_eq ▸ i.2
    exact ⟨_, (hentries.get i.2 hi).2⟩
  · intro h
    cases hm : m.tryMap f with
    | ok n => exact ⟨n, rfl⟩
    | error failure =>
      obtain ⟨before, e, after, hentries, -, he⟩ := tryMap_eq_error_iff.mp hm
      obtain ⟨b, hb⟩ := h e (by rw [hentries]; exact List.mem_append_right _ List.mem_cons_self)
      cases hb.symm.trans he

theorem names_tryMap [Named κ] {f : α → Except ε β} {n : OrderedMap κ β} (h : m.tryMap f = .ok n) :
    n.names = m.names := by
  obtain ⟨es⟩ := m
  obtain ⟨fs⟩ := n
  have hentries : List.Forall₂ (fun e e' => e'.1 = e.1 ∧ f e.2 = .ok e'.2) es fs :=
    tryMap_eq_ok_iff.mp h
  clear h
  induction hentries with
  | nil => rfl
  | cons hentry _ ih => rw [names_mk_cons, names_mk_cons, hentry.1, ih]

/-- What a name has is replaced. -/
theorem get?_tryMap [Named κ] {f : α → Except ε β} {n : OrderedMap κ β} (h : m.tryMap f = .ok n)
    (name : String) : (n.get? name).map .ok = (m.get? name).map f := by
  obtain ⟨es⟩ := m
  obtain ⟨fs⟩ := n
  have hentries : List.Forall₂ (fun e e' => e'.1 = e.1 ∧ f e.2 = .ok e'.2) es fs :=
    tryMap_eq_ok_iff.mp h
  clear h
  induction hentries with
  | nil => rfl
  | @cons e e' es fs hentry _ ih =>
    rw [get?_mk_cons, get?_mk_cons, hentry.1]
    by_cases hname : Named.name e.1 = name
    · rw [if_pos hname, if_pos hname, Option.map_some, Option.map_some, hentry.2]
    · rw [if_neg hname, if_neg hname, ih]

end

end OrderedMap

end Tabular
