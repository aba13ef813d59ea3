import Mathlib.Data.List.Induction
import Mathlib.Data.List.Nodup
import Tabular.Proofs.OrderedMap.Extension

/-!
# Maps altered one entry after another

What becomes of a map that is written to in steps, each of which makes the new value of a key from
the value that is there.

- `OrderedMap.alters`: the map after such steps.
- `OrderedMap.names_alters`: the names of a new map come in the order in which they are first
  written to, each of them once.
- `OrderedMap.get?_alters`: **the value of a name comes from the steps that write to it.**
- `OrderedMap.alter_comm`, `OrderedMap.alter_alter`: steps on different names can be taken in either
  order if one of the names is there, and two steps on one key are one step.
-/

namespace Tabular

namespace OrderedMap

variable {κ α : Type} [Named κ]

/-- The map with new values for keys, one after another. -/
def alters (m : OrderedMap κ α) (ws : List (κ × (Option α → α))) : OrderedMap κ α :=
  ws.foldl (fun m w => m.alter w.1 w.2) m

theorem alters_append (m : OrderedMap κ α) (vs ws : List (κ × (Option α → α))) :
    m.alters (vs ++ ws) = (m.alters vs).alters ws :=
  List.foldl_append

/-! ## Names -/

theorem nodup_names_alter {m : OrderedMap κ α} (h : m.names.Nodup) (key : κ)
    (f : Option α → α) : (m.alter key f).names.Nodup := by
  rw [names_alter]
  by_cases hmem : Named.name key ∈ m.names
  · rwa [if_pos hmem]
  · rw [if_neg hmem, ← List.concat_eq_append]
    exact h.concat hmem

theorem nodup_names_alters {m : OrderedMap κ α} (h : m.names.Nodup)
    (ws : List (κ × (Option α → α))) : (m.alters ws).names.Nodup := by
  induction ws generalizing m with
  | nil => exact h
  | cons w ws ih => exact ih (nodup_names_alter h w.1 w.2)

theorem nodup_names_empty : (empty : OrderedMap κ α).names.Nodup := List.nodup_nil

theorem eraseDups_concat (names : List String) (name : String) :
    (names ++ [name]).eraseDups =
      if name ∈ names.eraseDups then names.eraseDups else names.eraseDups ++ [name] := by
  rw [List.eraseDups_append, List.cons_removeAll]
  by_cases h : name ∈ names
  · simp [h]
  · simp [h, List.eraseDups_cons]

theorem eraseDups_filter (p : String → Bool) (names : List String) :
    (names.filter p).eraseDups = names.eraseDups.filter p := by
  induction names using List.reverseRecOn with
  | nil => rfl
  | append_singleton names name ih =>
    rw [List.filter_append, eraseDups_concat]
    by_cases hp : p name = true
    · rw [List.filter_cons_of_pos hp, List.filter_nil, eraseDups_concat, ih]
      by_cases h : name ∈ names.eraseDups
      · rw [if_pos h, if_pos (List.mem_filter.mpr ⟨h, hp⟩)]
      · rw [if_neg h, if_neg fun hmem => h (List.mem_filter.mp hmem).1, List.filter_append,
          List.filter_cons_of_pos hp, List.filter_nil]
    · rw [List.filter_cons_of_neg hp, List.filter_nil, List.append_nil, ih]
      by_cases h : name ∈ names.eraseDups
      · rw [if_pos h]
      · rw [if_neg h, List.filter_append, List.filter_cons_of_neg hp, List.filter_nil,
          List.append_nil]

/-- The names of a new map come in the order in which they are first written to. -/
theorem names_alters (ws : List (κ × (Option α → α))) :
    ((empty : OrderedMap κ α).alters ws).names =
      (ws.map fun w => Named.name w.1).eraseDups := by
  induction ws using List.reverseRecOn with
  | nil => rfl
  | append_singleton ws w ih =>
    rw [alters_append, List.map_append]
    show (((empty : OrderedMap κ α).alters ws).alter w.1 w.2).names = _
    rw [names_alter, ih, List.map_singleton, eraseDups_concat]

theorem ofList_eq_alters (es : List (κ × α)) :
    ofList es = (empty : OrderedMap κ α).alters (es.map fun e => (e.1, fun _ => e.2)) := by
  rw [alters, List.foldl_map]
  rfl

/-- The names of inserted entries, each where it comes first. -/
theorem names_ofList (es : List (κ × α)) :
    (ofList es).names = (⟨es⟩ : OrderedMap κ α).names.eraseDups := by
  rw [ofList_eq_alters, names_alters, List.map_map]
  rfl

theorem nodup_names_ofList (es : List (κ × α)) : (ofList es).names.Nodup := by
  rw [ofList_eq_alters]
  exact nodup_names_alters nodup_names_empty _

/-! ## Values -/

/-- The value of a name comes from the steps that write to it. -/
theorem get?_alters (m : OrderedMap κ α) (ws : List (κ × (Option α → α))) (name : String) :
    (m.alters ws).get? name =
      (ws.filter fun w => Named.name w.1 = name).foldl (fun old w => some (w.2 old))
        (m.get? name) := by
  induction ws generalizing m with
  | nil => rfl
  | cons w ws ih =>
    show ((m.alter w.1 w.2).alters ws).get? name = _
    rw [ih, get?_alter, List.filter_cons]
    by_cases h : Named.name w.1 = name
    · simp [h]
    · simp [h]

/-! ## Steps rearranged -/

theorem alterEntries_comm {a b : κ} (f g : Option α → α) (hne : Named.name a ≠ Named.name b)
    {es : List (κ × α)} (ha : Named.name a ∈ (⟨es⟩ : OrderedMap κ α).names) :
    alterEntries b g (alterEntries a f es) = alterEntries a f (alterEntries b g es) := by
  induction es with
  | nil => cases ha
  | cons e es ih =>
    obtain ⟨k, v⟩ := e
    by_cases hka : Named.name k = Named.name a
    · have hkb : Named.name k ≠ Named.name b := hka ▸ hne
      simp [alterEntries, hka, hne]
    · rw [names_mk_cons, List.mem_cons] at ha
      have ih := ih (ha.resolve_left (Ne.symm hka))
      by_cases hkb : Named.name k = Named.name b
      · simp [alterEntries, hkb, Ne.symm hne]
      · simp [alterEntries, hka, hkb, ih]

/-- Different names can be written to in either order, if the map has one of them. -/
theorem alter_comm {m : OrderedMap κ α} {a b : κ} (f g : Option α → α)
    (hne : Named.name a ≠ Named.name b)
    (h : Named.name a ∈ m.names ∨ Named.name b ∈ m.names) :
    (m.alter a f).alter b g = (m.alter b g).alter a f := by
  rcases h with ha | hb
  · exact congrArg OrderedMap.mk (alterEntries_comm f g hne ha)
  · exact congrArg OrderedMap.mk (alterEntries_comm g f hne.symm hb).symm

theorem alterEntries_alterEntries (key : κ) (f g : Option α → α) (es : List (κ × α)) :
    alterEntries key g (alterEntries key f es) =
      alterEntries key (fun old => g (some (f old))) es := by
  induction es with
  | nil => simp [alterEntries]
  | cons e es ih =>
    obtain ⟨k, v⟩ := e
    by_cases h : Named.name k = Named.name key
    · simp [alterEntries, h]
    · simp [alterEntries, h, ih]

/-- Writing to a key twice is writing once what both come to. -/
theorem alter_alter (m : OrderedMap κ α) (key : κ) (f g : Option α → α) :
    (m.alter key f).alter key g = m.alter key fun old => g (some (f old)) :=
  congrArg OrderedMap.mk (alterEntries_alterEntries key f g m.entries)

end OrderedMap

end Tabular
