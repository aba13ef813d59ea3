import Tabular.Proofs.OrderedMap.Contents
import Tabular.Record

/-!
# Records and their histories

A record told by the steps that have led to it.

- `Record.Step`, `Record.run`: keys are inserted and taken, values are replaced, and a new record is
  begun. A history ends where a value cannot be replaced.
- `Record.lasting`: the insertions that are not undone, with what becomes of their values.
- `Record.names_run`, `Record.get?_run`: the names come in the order of their first lasting
  insertions, and each has the value of its last one.
- `Record.run_as_told`: **a record is what its lasting insertions tell**, with what each operation
  does to it.
-/

namespace Tabular

namespace Record

/-- A step in the history of a record. -/
inductive Step where
  | insert (key : String) (v : Value)
  | take (key : String)
  /-- A new record is begun in place of the old one. -/
  | renew
  /-- Every value is replaced. -/
  | map (f : Value → Except Failure Value)

namespace Step

/-- The step undoes insertions of a key. -/
def removes (key : String) : Step → Bool
  | take removed => removed = key
  | renew => true
  | _ => false

/-- What a step makes of a value that it leaves where it is. -/
def carry (v : Value) : Step → Except Failure Value
  | map f => f v
  | _ => .ok v

/-- The insertion that a step is, with its value. -/
def inserted : Step → List (String × Except Failure Value)
  | insert key v => [(key, .ok v)]
  | _ => []

end Step

/-- The record after one more step, unless a value cannot be replaced. -/
def step (r : Record) : Step → Except Failure Record
  | .insert key v => .ok (r.insert key v)
  | .take key => .ok (r.take key).2
  | .renew => .ok empty
  | .map f => r.tryMap f

/-- The record after steps, the first of which finds it empty. -/
def run (ss : List Step) : Except Failure Record := ss.foldlM step empty

theorem run_concat (ss : List Step) (s : Step) : run (ss ++ [s]) = (run ss).bind (step · s) :=
  foldlM_concat step empty ss s

theorem exists_of_run_concat {ss : List Step} {s : Step} {r : Record}
    (h : run (ss ++ [s]) = .ok r) : ∃ q, run ss = .ok q ∧ step q s = .ok r := by
  rw [run_concat] at h
  cases hq : run ss with
  | error failure =>
    rw [hq] at h
    cases h
  | ok q =>
    rw [hq] at h
    exact ⟨q, rfl, h⟩

/-! ## Lasting insertions -/

/-- The insertions of keys that no later step undoes, in order, each with what the later steps make
of its value. -/
def lasting : List Step → List (String × Except Failure Value)
  | [] => []
  | .insert key v :: ss =>
    if ss.any (Step.removes key) then lasting ss else (key, ss.foldlM Step.carry v) :: lasting ss
  | _ :: ss => lasting ss

/-- One step more undoes insertions, carries on the values of the others, and may be one itself. -/
theorem lasting_concat (ss : List Step) (s : Step) :
    lasting (ss ++ [s]) =
      ((lasting ss).filter fun e => !s.removes e.1).map
        (fun e => (e.1, e.2.bind (Step.carry · s))) ++ s.inserted := by
  induction ss with
  | nil => cases s <;> rfl
  | cons first ss ih =>
    cases first with
    | take key => exact ih
    | renew => exact ih
    | map f => exact ih
    | insert key v =>
      rw [List.cons_append, lasting, lasting, List.any_append, ih]
      -- the insertion is undone already, or by the step that is added, or not at all
      by_cases hss : ss.any (Step.removes key) = true
      · rw [if_pos hss, if_pos (by rw [hss]; rfl)]
      · by_cases hs : s.removes key = true
        · rw [if_neg hss, if_pos (by simp [hs]), List.filter_cons_of_neg (by simp [hs])]
        · rw [if_neg hss, if_neg (by simp [hss, hs]), List.filter_cons_of_pos (by simp [hs]),
            foldlM_concat]
          rfl

theorem bind_ok (x : Except Failure Value) : x.bind .ok = x := by
  cases x <;> rfl

theorem lasting_insert (ss : List Step) (key : String) (v : Value) :
    lasting (ss ++ [.insert key v]) = lasting ss ++ [(key, .ok v)] := by
  simp [lasting_concat, Step.removes, Step.carry, Step.inserted, bind_ok]

theorem lasting_take (ss : List Step) (key : String) :
    lasting (ss ++ [.take key]) = (lasting ss).filter fun e => e.1 ≠ key := by
  simp [lasting_concat, Step.removes, Step.carry, Step.inserted, bind_ok, eq_comm]

theorem lasting_renew (ss : List Step) : lasting (ss ++ [.renew]) = [] := by
  simp [lasting_concat, Step.removes, Step.inserted]

theorem lasting_map (ss : List Step) (f : Value → Except Failure Value) :
    lasting (ss ++ [.map f]) = (lasting ss).map fun e => (e.1, e.2.bind f) := by
  simp [lasting_concat, Step.removes, Step.carry, Step.inserted]

/-! ## What a history leaves -/

theorem nodup_names_step {r q : Record} {s : Step} (h : r.names.Nodup) (hs : r.step s = .ok q) :
    q.names.Nodup := by
  cases s with
  | insert key v =>
    cases hs
    exact OrderedMap.nodup_names_alter h key _
  | take key =>
    cases hs
    show (r.erase key).names.Nodup
    rw [OrderedMap.names_erase h]
    exact h.filter _
  | renew =>
    cases hs
    exact List.nodup_nil
  | map f =>
    rw [OrderedMap.names_tryMap hs]
    exact h

/-- No two entries of a record have the same key. -/
theorem nodup_names_run {ss : List Step} {r : Record} (h : run ss = .ok r) : r.names.Nodup := by
  induction ss using List.reverseRecOn generalizing r with
  | nil =>
    cases h
    exact List.nodup_nil
  | append_singleton ss s ih =>
    obtain ⟨q, hq, hs⟩ := exists_of_run_concat h
    exact nodup_names_step (ih hq) hs

/-- The keys come in the order of their first lasting insertions. -/
theorem names_run {ss : List Step} {r : Record} (h : run ss = .ok r) :
    r.names = ((lasting ss).map Prod.fst).eraseDups := by
  -- on the last step, which writes to the record before it as it does to the lasting insertions
  induction ss using List.reverseRecOn generalizing r with
  | nil =>
    cases h
    rfl
  | append_singleton ss s ih =>
    obtain ⟨q, hq, hs⟩ := exists_of_run_concat h
    have ih := ih hq
    cases s with
    | insert key v =>
      cases hs
      show (q.alter key _).names = _
      rw [OrderedMap.names_alter, ih, lasting_insert, List.map_append, List.map_singleton,
        OrderedMap.eraseDups_concat]
      rfl
    | take key =>
      cases hs
      show (q.erase key).names = _
      rw [OrderedMap.names_erase (nodup_names_run hq), ih, lasting_take,
        ← OrderedMap.eraseDups_filter, List.filter_map]
      rfl
    | renew =>
      cases hs
      rw [lasting_renew]
      rfl
    | map f =>
      rw [OrderedMap.names_tryMap hs, ih, lasting_map, List.map_map]
      rfl

/-- What becomes of the last of the insertions of a key. -/
def told (es : List (String × Except Failure Value)) (name : String) :
    Option (Except Failure Value) :=
  (es.filter fun e => e.1 = name).getLast?.map Prod.snd

theorem told_concat (es : List (String × Except Failure Value)) (key : String)
    (x : Except Failure Value) (name : String) :
    told (es ++ [(key, x)]) name = if key = name then some x else told es name := by
  unfold told
  rw [List.filter_append]
  by_cases hkey : key = name
  · rw [if_pos hkey, List.filter_cons_of_pos (by simp [hkey]), List.filter_nil,
      List.getLast?_concat]
    rfl
  · rw [if_neg hkey, List.filter_cons_of_neg (by simp [hkey]), List.filter_nil, List.append_nil]

theorem told_filter_ne (es : List (String × Except Failure Value)) (key name : String) :
    told (es.filter fun e => e.1 ≠ key) name = if key = name then none else told es name := by
  unfold told
  rw [List.filter_filter]
  by_cases hkey : key = name
  · subst hkey
    simp
  · have hother : ∀ e : String × Except Failure Value,
        (decide (e.1 = name) && decide (e.1 ≠ key)) = decide (e.1 = name) := by
      intro e
      by_cases he : e.1 = name
      · simp [he, Ne.symm hkey]
      · simp [he]
    simp only [hother, if_neg hkey]

theorem told_map (es : List (String × Except Failure Value))
    (f : Value → Except Failure Value) (name : String) :
    told (es.map fun e => (e.1, e.2.bind f)) name = (told es name).map (Except.bind · f) := by
  unfold told
  rw [List.filter_map, List.getLast?_map, Option.map_map, Option.map_map]
  rfl

/-- A key has the value of its last lasting insertion. -/
theorem get?_run {ss : List Step} {r : Record} (h : run ss = .ok r) (name : String) :
    (r.get? name).map .ok = told (lasting ss) name := by
  induction ss using List.reverseRecOn generalizing r with
  | nil =>
    cases h
    rfl
  | append_singleton ss s ih =>
    obtain ⟨q, hq, hs⟩ := exists_of_run_concat h
    have ih := ih hq
    cases s with
    | insert key v =>
      cases hs
      show ((q.alter key _).get? name).map Except.ok = _
      rw [OrderedMap.get?_alter, name_string, lasting_insert, told_concat, ← ih]
      by_cases hkey : key = name
      · rw [if_pos hkey, if_pos hkey, Option.map_some]
      · rw [if_neg hkey, if_neg hkey]
    | take key =>
      cases hs
      show ((q.erase key).get? name).map Except.ok = _
      rw [OrderedMap.get?_erase (nodup_names_run hq), lasting_take, told_filter_ne, ← ih]
      by_cases hkey : key = name
      · rw [if_pos hkey, if_pos hkey, Option.map_none]
      · rw [if_neg hkey, if_neg hkey]
    | renew =>
      cases hs
      rw [lasting_renew]
      rfl
    | map f =>
      rw [OrderedMap.get?_tryMap hs, lasting_map, told_map, ← ih, Option.map_map]
      rfl

/-- A history ends where a value cannot be replaced, and nowhere else. -/
theorem run_eq_error_iff {ss : List Step} {failure : Failure} :
    run ss = .error failure ↔ ∃ before f after r, ss = before ++ .map f :: after ∧
      run before = .ok r ∧ r.tryMap f = .error failure := by
  unfold run
  rw [foldlM_eq_error_iff]
  constructor
  · rintro ⟨before, s, after, r, rfl, hbefore, hs⟩
    cases s with
    | insert key v => cases hs
    | take key => cases hs
    | renew => cases hs
    | map f => exact ⟨before, f, after, r, rfl, hbefore, hs⟩
  · rintro ⟨before, f, after, r, rfl, hbefore, hf⟩
    exact ⟨before, .map f, after, r, rfl, hbefore, hf⟩

theorem foldlM_insert (r : Record) (es : List (String × Value)) :
    (es.map fun e => Step.insert e.1 e.2).foldlM step r = .ok (r.extend es) := by
  induction es generalizing r with
  | nil => rfl
  | cons e es ih => exact ih (r.insert e.1 e.2)

/-! ## Records as text -/

/-- A key and its value in data exchange. -/
def memberText (e : String × Value) : String :=
  String.ofList (Json.quote e.1) ++ ":" ++ e.2.toJson.toText

theorem toList_memberText (e : String × Value) :
    (memberText e).toList = Json.quote e.1 ++ ':' :: e.2.toJson.write := by
  simp [memberText, Json.toText]

theorem write_members (e : String × Value) (es : List (String × Value)) :
    Json.quote e.1 ++ ':' :: (e.2.toJson.write ++
        Json.writeMembers (es.map fun e => (e.1, e.2.toJson))) =
      [','].intercalate ((e :: es).map fun e => (memberText e).toList) ++ ['\x7d'] := by
  induction es generalizing e with
  | nil => simp [toList_memberText, Json.writeMembers]
  | cons next es ih =>
    rw [List.map_cons, Json.writeMembers, ih, List.map_cons, List.map_cons, List.map_cons,
      List.intercalate_cons_cons, toList_memberText e]
    simp

/-- The text of a record lists its entries in order. -/
theorem toText_toJson (r : Record) :
    r.toJson.toText = "\x7b" ++ ",".intercalate (r.entries.map memberText) ++ "\x7d" := by
  rw [← String.toList_inj, String.toList_append, String.toList_append, String.toList_intercalate,
    List.map_map, toJson, Json.toText, String.toList_ofList]
  cases r.entries with
  | nil => rfl
  | cons e es =>
    rw [List.map_cons, Json.write]
    exact congrArg _ (write_members e es)

/-! ## What a record tells -/

/-- The operations are steps. -/
structure Stepwise (r : Record) : Prop where
  insert key v : r.step (.insert key v) = .ok (r.insert key v)
  take key : r.step (.take key) = .ok (r.take key).2
  tryMap f : r.step (.map f) = r.tryMap f
  /-- A collection is inserted into a new record. -/
  collect es : (Step.renew :: es.map fun e => .insert e.1 e.2).foldlM step r =
    .ok (OrderedMap.ofList es)

/-- A record is what its lasting insertions tell. -/
structure AsTold (ss : List Step) (r : Record) : Prop where
  /-- No two entries have the same key. -/
  nodup : r.names.Nodup
  /-- The keys come in the order of their first lasting insertions. -/
  names_eq : r.names = ((lasting ss).map Prod.fst).eraseDups
  /-- Each has the value of its last one. -/
  get?_eq key : (r.get? key).map .ok = told (lasting ss) key
  mem_entries_iff e : e ∈ r.entries ↔ r.get? e.1 = some e.2
  contains_iff key : r.contains key = true ↔ key ∈ r.names
  size_eq : r.size = r.names.length
  isEmpty_iff : r.isEmpty = true ↔ r.names = []
  /-- The text lists the entries, with commas between them. -/
  text_eq : r.toJson.toText = "\x7b" ++ ",".intercalate (r.entries.map memberText) ++ "\x7d"

/-- What the operations do to the entries of a record. -/
structure Operated (r : Record) : Prop where
  /-- A value that is there is replaced in its place. -/
  overwrite key v : key ∈ r.names →
    (r.insert key v).entries = r.entries.map fun e => if e.1 = key then (e.1, v) else e
  /-- A new key comes last. -/
  append key v : key ∉ r.names → (r.insert key v).entries = r.entries ++ [(key, v)]
  taken key : (r.take key).1 = r.get? key
  /-- The other entries stay as they are. -/
  rest key : (r.take key).2.entries = r.entries.filter fun e => e.1 ≠ key
  /-- Only values are replaced. -/
  replaced (f : Value → Except Failure Value) (s : Record) : r.tryMap f = .ok s ↔
    List.Forall₂ (fun e e' => e'.1 = e.1 ∧ f e.2 = .ok e'.2) r.entries s.entries
  succeeds (f : Value → Except Failure Value) : (∃ s, r.tryMap f = .ok s) ↔
    ∀ e ∈ r.entries, ∃ w, f e.2 = .ok w
  /-- The failure is that of the first value that cannot be replaced. -/
  fails (f : Value → Except Failure Value) failure : r.tryMap f = .error failure ↔
    ∃ before e after, r.entries = before ++ e :: after ∧
      (∀ x ∈ before, ∃ w, f x.2 = .ok w) ∧ f e.2 = .error failure

theorem asTold {ss : List Step} {r : Record} (h : run ss = .ok r) : AsTold ss r where
  nodup := nodup_names_run h
  names_eq := names_run h
  get?_eq := get?_run h
  mem_entries_iff _ := OrderedMap.mem_entries_iff (nodup_names_run h)
  contains_iff _ := OrderedMap.contains_iff
  size_eq := (List.length_map _).symm
  isEmpty_iff := by rw [OrderedMap.isEmpty, List.isEmpty_iff, OrderedMap.names, List.map_eq_nil_iff]
  text_eq := toText_toJson r

theorem operated {r : Record} (h : r.names.Nodup) : Operated r where
  overwrite _ v hkey := OrderedMap.entries_insert_of_mem h hkey v
  append _ _ hkey := OrderedMap.alterEntries_of_notMem _ hkey
  taken _ := rfl
  rest key := OrderedMap.entries_erase h key
  replaced _ _ := OrderedMap.tryMap_eq_ok_iff
  succeeds _ := OrderedMap.exists_tryMap_iff
  fails _ _ := OrderedMap.tryMap_eq_error_iff

/-- **A record is what its lasting insertions tell.** Its operations are steps, and a history of
steps ends only where a value cannot be replaced. Two records are equal exactly if they have the
same keys in the same order and equal values. Values are replaced in order, whatever else is done
for them. -/
theorem run_as_told :
    (∀ r : Record, Stepwise r) ∧
    (∀ ss r, run ss = .ok r → AsTold ss r ∧ Operated r) ∧
    (∀ ss failure, run ss = .error failure ↔ ∃ before f after r, ss = before ++ .map f :: after ∧
      run before = .ok r ∧ r.tryMap f = .error failure) ∧
    (∀ ss ts r s, run ss = .ok r → run ts = .ok s →
      ((r == s) = true ↔ r.names = s.names ∧ ∀ key, (r.get? key == s.get? key) = true)) ∧
    ∀ (μ : Type → Type) [Monad μ] [LawfulMonad μ] (r : Record) (f : Value → μ Value),
      r.mapM f = (fun vs => ⟨r.names.zip vs⟩) <$> (r.entries.map Prod.snd).mapM f :=
  ⟨fun _ => ⟨fun _ _ => rfl, fun _ => rfl, fun _ => rfl, fun es => foldlM_insert empty es⟩,
    fun _ _ h => ⟨asTold h, operated (nodup_names_run h)⟩,
    fun _ _ => run_eq_error_iff,
    fun _ _ _ _ hr hs => OrderedMap.beq_iff (nodup_names_run hr) (nodup_names_run hs),
    fun _ _ _ r f => OrderedMap.mapM_eq r f⟩

/-- A key is written twice, and another one is taken and comes again. -/
def sampledSteps : List Step :=
  [.insert "b" (.integer 1), .insert "a" (.integer 2), .insert "b" (.integer 3), .take "b",
    .insert "b" (.integer 4), .insert "a" (.integer 5), .map fun v => .ok v.encoded]

/-- The record that they leave. -/
def sampled : Record := ⟨[("a", .integer 5), ("b", .integer 4)]⟩

theorem run_as_told_sampled :
    run sampledSteps = .ok sampled ∧ sampled.names.Nodup ∧
    sampled.names = ((lasting sampledSteps).map Prod.fst).eraseDups ∧
    (sampled.get? "a").map .ok = told (lasting sampledSteps) "a" ∧
    sampled.toJson.toText = "\x7b\"a\":5,\"b\":4\x7d" ∧
    (sampled.insert "a" .null).entries = [("a", .null), ("b", .integer 4)] ∧
    (sampled.take "a").2.entries = [("b", .integer 4)] ∧
    (sampled == (⟨[("b", .integer 4), ("a", .integer 5)]⟩ : Record)) = false ∧
    run (sampledSteps ++ [.map fun _ => .error .uninitialized]) = .error .uninitialized := by
  obtain ⟨-, htold, herror, hequal, -⟩ := run_as_told
  have hrun : run sampledSteps = .ok sampled := rfl
  obtain ⟨hsampled, hoperated⟩ := htold sampledSteps sampled hrun
  have hother : run [.insert "b" (.integer 4), .insert "a" (.integer 5)] =
      .ok ⟨[("b", .integer 4), ("a", .integer 5)]⟩ := rfl
  refine ⟨hrun, hsampled.nodup, hsampled.names_eq, hsampled.get?_eq "a", hsampled.text_eq.trans ?_,
    hoperated.overwrite "a" _ ?_, hoperated.rest "a", Bool.eq_false_iff.mpr fun h => ?_,
    (herror _ _).mpr ⟨sampledSteps, _, [], sampled, rfl, hrun, rfl⟩⟩
  · decide
  · decide
  · have hnames := ((hequal _ _ _ _ hrun hother).mp h).1
    revert hnames
    decide

end Record

end Tabular
