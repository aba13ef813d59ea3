import Tabular.OrderedMap

/-!
# Maps extended by entries

What becomes of a map when entries are inserted one after another, told by the names of the map and
by its look-up.

- `OrderedMap.names_alter`: a name that is there keeps its place, a new one goes to the end.
- `OrderedMap.extend`: the map with entries inserted.
- `OrderedMap.names_extend`, `OrderedMap.get?_extend`: **entries of different names come after those
  that are there, except for the names that are there, of which only the values are replaced.**
- `OrderedMap.ofList_of_nodup`: the map of entries of different names is made of these entries.
- `OrderedMap.names_ofList_append`, `OrderedMap.get?_ofList_append`: entries of two origins, each of
  different names.
-/

namespace Tabular

namespace OrderedMap

variable {κ α : Type} [Named κ]

@[simp] theorem names_mk_nil : (⟨[]⟩ : OrderedMap κ α).names = [] := rfl

@[simp] theorem names_mk_cons (e : κ × α) (es : List (κ × α)) :
    (⟨e :: es⟩ : OrderedMap κ α).names = Named.name e.1 :: (⟨es⟩ : OrderedMap κ α).names := rfl

@[simp] theorem names_mk_append (as bs : List (κ × α)) :
    (⟨as ++ bs⟩ : OrderedMap κ α).names =
      (⟨as⟩ : OrderedMap κ α).names ++ (⟨bs⟩ : OrderedMap κ α).names :=
  List.map_append

theorem get?_mk_cons (e : κ × α) (es : List (κ × α)) (name : String) :
    (⟨e :: es⟩ : OrderedMap κ α).get? name =
      if Named.name e.1 = name then some e.2 else (⟨es⟩ : OrderedMap κ α).get? name := by
  unfold get?
  rw [List.find?_cons]
  by_cases h : Named.name e.1 = name
  · simp [h]
  · simp [h]

/-- A map has no value for the names that it does not have. -/
theorem get?_eq_none {m : OrderedMap κ α} {name : String} (h : name ∉ m.names) :
    m.get? name = none := by
  obtain ⟨es⟩ := m
  induction es with
  | nil => rfl
  | cons e es ih =>
    rw [names_mk_cons, List.mem_cons, not_or] at h
    rw [get?_mk_cons, if_neg (Ne.symm h.1), ih h.2]

/-- Where names are different, an entry has the value that its name is looked up with. -/
theorem get?_of_mem {m : OrderedMap κ α} (h : m.names.Nodup) {e : κ × α} (he : e ∈ m.entries) :
    m.get? (Named.name e.1) = some e.2 := by
  obtain ⟨es⟩ := m
  induction es with
  | nil => cases he
  | cons first es ih =>
    rw [names_mk_cons, List.nodup_cons] at h
    rw [get?_mk_cons]
    rcases List.mem_cons.mp he with rfl | he
    · rw [if_pos rfl]
    · have hne : Named.name first.1 ≠ Named.name e.1 :=
        fun heq => h.1 (heq ▸ List.mem_map_of_mem he)
      rw [if_neg hne, ih h.2 he]

/-- What a name is looked up with is the value of an entry. -/
theorem exists_mem_of_get? {m : OrderedMap κ α} {name : String} {a : α}
    (h : m.get? name = some a) : ∃ e ∈ m.entries, Named.name e.1 = name ∧ e.2 = a := by
  obtain ⟨e, hfind, rfl⟩ := Option.map_eq_some_iff.mp h
  have hname := List.find?_some hfind
  rw [decide_eq_true_iff] at hname
  exact ⟨e, List.mem_of_find?_eq_some hfind, hname, rfl⟩

/-! ## One entry -/

theorem alterEntries_of_notMem {key : κ} (f : Option α → α) {es : List (κ × α)}
    (h : Named.name key ∉ (⟨es⟩ : OrderedMap κ α).names) :
    alterEntries key f es = es ++ [(key, f none)] := by
  induction es with
  | nil => rfl
  | cons e es ih =>
    rw [names_mk_cons, List.mem_cons, not_or] at h
    rw [alterEntries, if_neg (Ne.symm h.1), ih h.2, List.cons_append]

theorem names_alterEntries_of_mem {key : κ} (f : Option α → α) {es : List (κ × α)}
    (h : Named.name key ∈ (⟨es⟩ : OrderedMap κ α).names) :
    (⟨alterEntries key f es⟩ : OrderedMap κ α).names = (⟨es⟩ : OrderedMap κ α).names := by
  induction es with
  | nil => cases h
  | cons e es ih =>
    rw [names_mk_cons, List.mem_cons] at h
    rw [alterEntries]
    by_cases he : Named.name e.1 = Named.name key
    · rw [if_pos he, names_mk_cons, names_mk_cons]
    · rw [if_neg he, names_mk_cons, names_mk_cons, ih (h.resolve_left (Ne.symm he))]

/-- A name that is there keeps its place, a new one goes to the end. -/
theorem names_alter (m : OrderedMap κ α) (key : κ) (f : Option α → α) :
    (m.alter key f).names =
      if Named.name key ∈ m.names then m.names else m.names ++ [Named.name key] := by
  unfold alter
  by_cases h : Named.name key ∈ m.names
  · rw [if_pos h]
    exact names_alterEntries_of_mem f h
  · rw [if_neg h, alterEntries_of_notMem f h, names_mk_append]
    rfl

/-! ## Many entries -/

/-- The map with entries inserted one after another. -/
def extend (m : OrderedMap κ α) (es : List (κ × α)) : OrderedMap κ α :=
  es.foldl (fun m e => m.insert e.1 e.2) m

@[simp] theorem extend_nil (m : OrderedMap κ α) : m.extend [] = m := rfl

@[simp] theorem extend_cons (m : OrderedMap κ α) (e : κ × α) (es : List (κ × α)) :
    m.extend (e :: es) = (m.insert e.1 e.2).extend es := rfl

theorem extend_append (m : OrderedMap κ α) (as bs : List (κ × α)) :
    m.extend (as ++ bs) = (m.extend as).extend bs :=
  List.foldl_append

/-- Entries of new names are put after those that are there. -/
theorem extend_of_nodup {as bs : List (κ × α)}
    (h : (⟨as ++ bs⟩ : OrderedMap κ α).names.Nodup) :
    (⟨as⟩ : OrderedMap κ α).extend bs = ⟨as ++ bs⟩ := by
  induction bs generalizing as with
  | nil => rw [extend_nil, List.append_nil]
  | cons b bs ih =>
    have hnew : Named.name b.1 ∉ (⟨as⟩ : OrderedMap κ α).names := by
      rw [names_mk_append, names_mk_cons, List.nodup_append] at h
      exact fun hmem => h.2.2 _ hmem _ List.mem_cons_self rfl
    have hinsert : (⟨as⟩ : OrderedMap κ α).insert b.1 b.2 = ⟨as ++ [b]⟩ :=
      congrArg OrderedMap.mk (alterEntries_of_notMem _ hnew)
    rw [List.append_cons] at h ⊢
    rw [extend_cons, hinsert, ih h]

/-- The map of entries of different names is made of these entries. -/
theorem ofList_of_nodup {es : List (κ × α)} (h : (⟨es⟩ : OrderedMap κ α).names.Nodup) :
    ofList es = ⟨es⟩ := by
  show (⟨[]⟩ : OrderedMap κ α).extend es = ⟨[] ++ es⟩
  exact extend_of_nodup h

/-- New names come after those that are there. -/
theorem names_extend (m : OrderedMap κ α) {es : List (κ × α)}
    (h : (⟨es⟩ : OrderedMap κ α).names.Nodup) :
    (m.extend es).names =
      m.names ++ (⟨es⟩ : OrderedMap κ α).names.filter fun name => name ∉ m.names := by
  induction es generalizing m with
  | nil => simp
  | cons e es ih =>
    rw [names_mk_cons, List.nodup_cons] at h
    rw [extend_cons, ih _ h.2, insert, names_alter, names_mk_cons, List.filter_cons]
    by_cases hmem : Named.name e.1 ∈ m.names
    · simp [hmem]
    · -- the name is added, and does not come again
      have hrest : ∀ name ∈ (⟨es⟩ : OrderedMap κ α).names, name ≠ Named.name e.1 :=
        fun name hname heq => h.1 (heq ▸ hname)
      simp only [hmem, if_false, not_false_eq_true, decide_true, if_true, List.append_assoc,
        List.singleton_append, List.mem_append, List.mem_singleton, not_or]
      refine congrArg (fun names => m.names ++ Named.name e.1 :: names) ?_
      refine List.filter_congr fun name hname => ?_
      simp [hrest name hname]

/-- The value of an entry that is inserted replaces the one that is there. -/
theorem get?_extend (m : OrderedMap κ α) {es : List (κ × α)}
    (h : (⟨es⟩ : OrderedMap κ α).names.Nodup) (name : String) :
    (m.extend es).get? name = ((⟨es⟩ : OrderedMap κ α).get? name).or (m.get? name) := by
  induction es generalizing m with
  | nil => rfl
  | cons e es ih =>
    rw [names_mk_cons, List.nodup_cons] at h
    rw [extend_cons, ih _ h.2, insert, get?_alter, get?_mk_cons]
    by_cases hname : Named.name e.1 = name
    · rw [if_pos hname, if_pos hname, get?_eq_none (hname ▸ h.1)]
      rfl
    · rw [if_neg hname, if_neg hname]

/-- Entries of other names change nothing for a name. -/
theorem get?_extend_of_notMem (m : OrderedMap κ α) {es : List (κ × α)} {name : String}
    (h : name ∉ (⟨es⟩ : OrderedMap κ α).names) : (m.extend es).get? name = m.get? name := by
  induction es generalizing m with
  | nil => rfl
  | cons e es ih =>
    rw [names_mk_cons, List.mem_cons, not_or] at h
    rw [extend_cons, ih _ h.2, insert, get?_alter, if_neg (Ne.symm h.1)]

/-- A name has the value of the last entry that it has. -/
theorem get?_ofList_of_last {before after : List (κ × α)} {e : κ × α}
    (h : Named.name e.1 ∉ (⟨after⟩ : OrderedMap κ α).names) :
    (ofList (before ++ e :: after)).get? (Named.name e.1) = some e.2 := by
  show (empty.extend (before ++ e :: after)).get? _ = _
  rw [extend_append, extend_cons, get?_extend_of_notMem _ h, insert, get?_alter, if_pos rfl]

/-! ## Entries of two origins -/

section

variable {as bs : List (κ × α)} (ha : (⟨as⟩ : OrderedMap κ α).names.Nodup)
  (hb : (⟨bs⟩ : OrderedMap κ α).names.Nodup)

include ha

theorem ofList_append_of_nodup : ofList (as ++ bs) = (⟨as⟩ : OrderedMap κ α).extend bs := by
  show empty.extend (as ++ bs) = _
  rw [extend_append]
  exact congrArg (extend · bs) (ofList_of_nodup ha)

include hb

/-- The names of the first entries come first, and then those that only the second ones have. -/
theorem names_ofList_append :
    (ofList (as ++ bs)).names = (⟨as⟩ : OrderedMap κ α).names ++
      (⟨bs⟩ : OrderedMap κ α).names.filter fun name => name ∉ (⟨as⟩ : OrderedMap κ α).names := by
  rw [ofList_append_of_nodup ha, names_extend _ hb]

/-- A name has its value among the second entries if it is there, and else that among the first. -/
theorem get?_ofList_append (name : String) :
    (ofList (as ++ bs)).get? name =
      ((⟨bs⟩ : OrderedMap κ α).get? name).or ((⟨as⟩ : OrderedMap κ α).get? name) := by
  rw [ofList_append_of_nodup ha, get?_extend _ hb]

end

end OrderedMap

end Tabular
