import Tabular.Fragment

/-!
# The symbols of a fragment

A fragment seen as one row of characters and placeholders, whatever parts its text is split into.

- `Fragment.symbols`: the view. `++` puts symbols one after another (`symbols_append`), and the
  rendered text is the symbols written out (`toList_render`).
- `Fragment.WellFormed`: what every way of building a fragment keeps — raw parts are neither empty
  nor adjacent, and there is one parameter for each placeholder, in the form it is kept in.
- `Fragment.symbols_join`, `Fragment.params_join`: joined fragments are the nonempty ones with the
  separator between them, and the parameters of all.
-/

namespace Tabular

namespace Fragment

/-- One place of a statement: a character of its text, or a placeholder. -/
inductive Symbol where
  | char (c : Char)
  | hole
deriving DecidableEq

/-- The symbols of a text without placeholders. -/
def chars (text : String) : List Symbol := text.toList.map .char

/-- The symbols of a part. -/
def partSymbols : Part → List Symbol
  | .raw text => chars text
  | .placeholder => [.hole]

/-- The symbols of a fragment, in order. -/
def symbols (a : Fragment) : List Symbol := a.parts.flatMap partSymbols

@[simp] theorem chars_empty : chars "" = [] := rfl

@[simp] theorem chars_append (s t : String) : chars (s ++ t) = chars s ++ chars t := by
  simp [chars]

theorem chars_eq_nil {s : String} : chars s = [] ↔ s = "" := by
  rw [chars, List.map_eq_nil_iff, ← String.toList_inj]
  rfl

theorem hole_not_mem_chars (s : String) : Symbol.hole ∉ chars s := by
  simp [chars]

/-! ## The ways to build fragments, seen as symbols -/

theorem flatMap_consPart (p : Part) (ps : List Part) :
    (consPart p ps).flatMap partSymbols = partSymbols p ++ ps.flatMap partSymbols := by
  cases p with
  | placeholder => rfl
  | raw text =>
    match ps with
    | .raw next :: rest =>
      -- two texts become one part, with the same characters
      simp [consPart, partSymbols]
    | .placeholder :: rest =>
      by_cases h : text = "" <;> simp [consPart, h, partSymbols]
    | [] =>
      by_cases h : text = "" <;> simp [consPart, h, partSymbols]

theorem flatMap_appendParts (ps qs : List Part) :
    (appendParts ps qs).flatMap partSymbols =
      ps.flatMap partSymbols ++ qs.flatMap partSymbols := by
  match ps with
  | [] => rfl
  | [p] => simp [appendParts, flatMap_consPart]
  | p :: q :: rest =>
    have ih := flatMap_appendParts (q :: rest) qs
    simp [appendParts, ih]

@[simp] theorem symbols_empty : empty.symbols = [] := rfl

@[simp] theorem symbols_raw (text : String) : (raw text).symbols = chars text := by
  simp [symbols, raw, flatMap_consPart, partSymbols]

@[simp] theorem symbols_bind (v : Value) : (bind v).symbols = [.hole] := rfl

@[simp] theorem symbols_append (a b : Fragment) : (a ++ b).symbols = a.symbols ++ b.symbols :=
  flatMap_appendParts a.parts b.parts

@[simp] theorem symbols_parenthesized (a : Fragment) :
    a.parenthesized.symbols = .char '(' :: (a.symbols ++ [.char ')']) := by
  simp [parenthesized, chars]

@[simp] theorem params_empty : empty.params = [] := rfl

@[simp] theorem params_raw (text : String) : (raw text).params = [] := rfl

@[simp] theorem params_bind (v : Value) : (bind v).params = [v.encoded] := rfl

@[simp] theorem params_append (a b : Fragment) : (a ++ b).params = a.params ++ b.params := rfl

@[simp] theorem params_parenthesized (a : Fragment) : a.parenthesized.params = a.params := by
  simp [parenthesized]

/-! ## Rendering writes the symbols out -/

/-- The text of symbols that come after `index` placeholders. -/
def write (style : Placeholder) : Nat → List Symbol → List Char
  | _, [] => []
  | index, .char c :: s => c :: write style index s
  | index, .hole :: s => (placeholderText style index).toList ++ write style (index + 1) s

theorem write_chars_append (style : Placeholder) (index : Nat) (text : String)
    (s : List Symbol) :
    write style index (chars text ++ s) = text.toList ++ write style index s := by
  unfold chars
  induction text.toList with
  | nil => rfl
  | cons c cs ih => simp [write, ih]

theorem write_append_chars (style : Placeholder) (index : Nat) (s : List Symbol)
    (text : String) :
    write style index (s ++ chars text) = write style index s ++ text.toList := by
  induction s generalizing index with
  | nil => simpa [write] using write_chars_append style index text []
  | cons x s ih =>
    cases x with
    | char c => simp [write, ih]
    | hole => simp [write, ih]

/-- The character that a symbol is written as where placeholders are question marks. -/
def Symbol.asked : Symbol → Char
  | char c => c
  | hole => '?'

theorem write_question (index : Nat) (s : List Symbol) :
    write .question index s = s.map Symbol.asked := by
  induction s generalizing index with
  | nil => rfl
  | cons x s ih =>
    cases x with
    | char c => simp [write, Symbol.asked, ih]
    | hole => simp [write, Symbol.asked, placeholderText, ih]

@[simp] theorem map_asked_chars (text : String) : (chars text).map Symbol.asked = text.toList := by
  simp [chars, Function.comp_def, Symbol.asked]

theorem toList_renderFrom (style : Placeholder) (index : Nat) (ps : List Part) :
    (renderFrom style index ps).toList = write style index (ps.flatMap partSymbols) := by
  induction ps generalizing index with
  | nil => rfl
  | cons p ps ih =>
    cases p with
    | raw text => simp [renderFrom, partSymbols, write_chars_append, ih]
    | placeholder => simp [renderFrom, partSymbols, write, ih]

theorem toList_render (a : Fragment) (style : Placeholder) :
    (a.render style).toList = write style 0 a.symbols :=
  toList_renderFrom style 0 a.parts

/-- Text around a fragment does not change how the fragment is written. -/
theorem render_raw_append_append_raw (before : String) (a : Fragment) (behind : String)
    (style : Placeholder) :
    (raw before ++ a ++ raw behind).render style = before ++ a.render style ++ behind := by
  rw [← String.toList_inj, toList_render, String.toList_append, String.toList_append, toList_render,
    symbols_append, symbols_append, symbols_raw, symbols_raw, write_append_chars,
    write_chars_append]

theorem toList_render_question (a : Fragment) :
    (a.render .question).toList = a.symbols.map Symbol.asked := by
  rw [toList_render, write_question]

/-! ## Well-formed fragments -/

/-- No raw part is empty, and no raw part is next to another one. -/
def Canonical : List Part → Prop
  | [] => True
  | .placeholder :: ps => Canonical ps
  | .raw text :: ps => text ≠ "" ∧ (∀ next, ps.head? ≠ some (.raw next)) ∧ Canonical ps

theorem canonical_consPart {p : Part} {ps : List Part} (h : Canonical ps) :
    Canonical (consPart p ps) := by
  cases p with
  | placeholder => exact h
  | raw text =>
    match ps, h with
    | .raw next :: rest, ⟨hnext, happart, hrest⟩ =>
      -- the merged text is as little empty as the text that was there
      refine ⟨fun happ => hnext ?_, happart, hrest⟩
      simpa using (String.append_eq_empty_iff.mp happ).2
    | .placeholder :: rest, h =>
      by_cases ht : text = ""
      · simpa [consPart, ht] using h
      · simpa [consPart, ht, Canonical] using h
    | [], _ =>
      by_cases ht : text = "" <;> simp [consPart, ht, Canonical]

theorem head?_appendParts_placeholder (ps qs : List Part) :
    (appendParts (.placeholder :: ps) qs).head? = some .placeholder := by
  cases ps <;> rfl

theorem canonical_appendParts {qs : List Part} (hq : Canonical qs) :
    ∀ {ps : List Part}, Canonical ps → Canonical (appendParts ps qs)
  | [], _ => hq
  | [_], _ => canonical_consPart hq
  | .placeholder :: q :: rest, hp =>
    show Canonical (appendParts (q :: rest) qs) from
      canonical_appendParts hq (show Canonical (q :: rest) from hp)
  | .raw _ :: .raw next :: _, hp => absurd rfl (hp.2.1 next)
  | .raw text :: .placeholder :: rest, hp => by
    refine ⟨hp.1, ?_, canonical_appendParts hq hp.2.2⟩
    intro next
    -- the placeholder after the text stays there
    rw [head?_appendParts_placeholder]
    simp

/-- A fragment as the ways of building it give it: its parts have one form, its placeholders are
as many as its parameters, and no parameter is an instant. -/
structure WellFormed (a : Fragment) : Prop where
  canonical : Canonical a.parts
  count_holes : a.symbols.count .hole = a.params.length
  kind_ne : ∀ v ∈ a.params, v.kind ≠ .timestamp

theorem kind_encoded_ne (v : Value) : v.encoded.kind ≠ .timestamp := by
  cases v <;> simp [Value.encoded, Value.kind]

theorem wellFormed_empty : empty.WellFormed := ⟨trivial, rfl, by simp⟩

theorem wellFormed_raw (text : String) : (raw text).WellFormed where
  canonical := @canonical_consPart (.raw text) [] trivial
  count_holes := by
    rw [symbols_raw, List.count_eq_zero_of_not_mem (hole_not_mem_chars text)]
    rfl
  kind_ne := by simp

theorem wellFormed_bind (v : Value) : (bind v).WellFormed where
  canonical := trivial
  count_holes := rfl
  kind_ne := by simpa using kind_encoded_ne v

theorem WellFormed.append {a b : Fragment} (ha : a.WellFormed) (hb : b.WellFormed) :
    (a ++ b).WellFormed where
  canonical := canonical_appendParts hb.canonical ha.canonical
  count_holes := by
    rw [symbols_append, List.count_append, ha.count_holes, hb.count_holes, params_append,
      List.length_append]
  kind_ne v hv := by
    rcases List.mem_append.mp hv with hv | hv
    · exact ha.kind_ne v hv
    · exact hb.kind_ne v hv

theorem WellFormed.parenthesized {a : Fragment} (ha : a.WellFormed) :
    a.parenthesized.WellFormed :=
  ((wellFormed_raw "(").append ha).append (wellFormed_raw ")")

theorem flatMap_eq_nil_iff {ps : List Part} (h : Canonical ps) :
    ps.flatMap partSymbols = [] ↔ ps = [] := by
  match ps, h with
  | [], _ => simp
  | .placeholder :: rest, _ => simp [partSymbols]
  | .raw text :: rest, h => simp [partSymbols, chars_eq_nil, h.1]

/-- A well-formed fragment without parts is one without symbols. -/
theorem WellFormed.isEmpty_iff {a : Fragment} (ha : a.WellFormed) :
    a.isEmpty = true ↔ a.symbols = [] := by
  rw [isEmpty, List.isEmpty_iff]
  exact (flatMap_eq_nil_iff ha.canonical).symm

/-- A fragment without symbols has no parameters. -/
theorem WellFormed.params_eq_nil {a : Fragment} (ha : a.WellFormed) (h : a.symbols = []) :
    a.params = [] := by
  have hcount := ha.count_holes
  rw [h] at hcount
  exact List.eq_nil_of_length_eq_zero hcount.symm

/-! ## Joining -/

/-- What joining has done once it holds a nonempty fragment `out` and goes through nonempty ones:
every further fragment comes after a separator. -/
theorem foldl_join (separator : String) {out : Fragment} {as : List Fragment}
    (hout : out.WellFormed) (hne : out.symbols ≠ [])
    (has : ∀ a ∈ as, a.WellFormed ∧ a.symbols ≠ []) :
    let joined := as.foldl
      (fun out a => if out.isEmpty then a else out ++ raw separator ++ a) out
    joined.WellFormed ∧
      joined.symbols = (chars separator).intercalate (out.symbols :: as.map symbols) ∧
      joined.params = out.params ++ as.flatMap params := by
  induction as generalizing out with
  | nil => exact ⟨hout, by simp, by simp⟩
  | cons a as ih =>
    -- what is held is not empty, so the separator is written
    have hfalse : ¬ out.isEmpty = true := fun h => hne (hout.isEmpty_iff.mp h)
    have ha := has a (by simp)
    have hnext : (out ++ raw separator ++ a).WellFormed :=
      (hout.append (wellFormed_raw separator)).append ha.1
    have hnextne : (out ++ raw separator ++ a).symbols ≠ [] := by
      simp [ha.2]
    obtain ⟨hw, hs, hp⟩ := ih hnext hnextne fun b hb => has b (by simp [hb])
    simp only [List.foldl_cons, if_neg hfalse]
    refine ⟨hw, ?_, ?_⟩
    · -- a separator ends what is held, whether or not anything follows
      rw [hs]
      cases as <;> simp
    · rw [hp]
      simp

/-- The fragments that are left when the empty ones are dropped. -/
def solid (as : List Fragment) : List Fragment := as.filter fun a => !a.isEmpty

theorem mem_solid {as : List Fragment} (has : ∀ a ∈ as, a.WellFormed) {a : Fragment} :
    a ∈ solid as ↔ a ∈ as ∧ a.symbols ≠ [] := by
  rw [solid, List.mem_filter]
  refine and_congr_right fun ha => ?_
  rw [Bool.not_eq_true', ← Bool.not_eq_true, (has a ha).isEmpty_iff]

theorem join_spec (separator : String) {as : List Fragment} (has : ∀ a ∈ as, a.WellFormed) :
    (join separator as).WellFormed ∧
      (join separator as).symbols = (chars separator).intercalate ((solid as).map symbols) ∧
      (join separator as).params = (solid as).flatMap params := by
  have hsolid : ∀ a ∈ solid as, a.WellFormed ∧ a.symbols ≠ [] := fun a ha =>
    have h := (mem_solid has).mp ha
    ⟨has a h.1, h.2⟩
  show ((solid as).foldl _ empty).WellFormed ∧ _
  unfold join
  rw [← solid]
  cases hl : solid as with
  | nil => exact ⟨wellFormed_empty, rfl, rfl⟩
  | cons a rest =>
    rw [hl] at hsolid
    have ha := hsolid a (by simp)
    have hrest : ∀ b ∈ rest, b.WellFormed ∧ b.symbols ≠ [] := fun b hb =>
      hsolid b (by simp [hb])
    have h := foldl_join separator ha.1 ha.2 hrest
    simpa [empty, isEmpty] using h

/-- Joining well-formed fragments gives a well-formed one. -/
theorem wellFormed_join (separator : String) {as : List Fragment}
    (has : ∀ a ∈ as, a.WellFormed) : (join separator as).WellFormed :=
  (join_spec separator has).1

/-- The symbols of joined fragments: those of the nonempty ones with the separator between. -/
theorem symbols_join (separator : String) {as : List Fragment} (has : ∀ a ∈ as, a.WellFormed) :
    (join separator as).symbols = (chars separator).intercalate ((solid as).map symbols) :=
  (join_spec separator has).2.1

theorem solid_eq_nil_iff {as : List Fragment} (has : ∀ a ∈ as, a.WellFormed) :
    solid as = [] ↔ ∀ a ∈ as, a.symbols = [] := by
  rw [List.eq_nil_iff_forall_not_mem]
  constructor
  · intro h a ha
    refine Classical.byContradiction fun hne => ?_
    exact h a ((mem_solid has).mpr ⟨ha, hne⟩)
  · intro h a ha
    have hmem := (mem_solid has).mp ha
    exact hmem.2 (h a hmem.1)

/-- Joined fragments are empty if and only if every one of them is. -/
theorem symbols_join_eq_nil_iff (separator : String) {as : List Fragment}
    (has : ∀ a ∈ as, a.WellFormed) :
    (join separator as).symbols = [] ↔ ∀ a ∈ as, a.symbols = [] := by
  rw [symbols_join separator has, ← solid_eq_nil_iff has]
  constructor
  · intro h
    cases hl : solid as with
    | nil => rfl
    | cons b rest =>
      have hb : b.symbols ≠ [] := ((mem_solid has).mp (by simp [hl])).2
      rw [hl] at h
      cases rest <;> simp_all
  · intro h
    rw [h]
    rfl

/-- Joining one fragment more: a separator comes after it if there is something on both sides. -/
theorem symbols_join_cons (separator : String) {a : Fragment} {as : List Fragment}
    (has : ∀ b ∈ a :: as, b.WellFormed) :
    (join separator (a :: as)).symbols =
      if a.symbols = [] then (join separator as).symbols
      else if (join separator as).symbols = [] then a.symbols
      else a.symbols ++ chars separator ++ (join separator as).symbols := by
  have ha : a.WellFormed := has a (by simp)
  have hrest : ∀ b ∈ as, b.WellFormed := fun b hb => has b (by simp [hb])
  rw [symbols_join separator has]
  by_cases he : a.symbols = []
  · -- an empty fragment is dropped before anything is joined
    have hsolid : solid (a :: as) = solid as := by
      simp [solid, ha.isEmpty_iff.mpr he]
    rw [if_pos he, hsolid, symbols_join separator hrest]
  · have hfalse : a.isEmpty = false := Bool.eq_false_iff.mpr fun h => he (ha.isEmpty_iff.mp h)
    have hsolid : solid (a :: as) = a :: solid as := by
      simp [solid, hfalse]
    rw [if_neg he, hsolid, List.map_cons]
    have hnil := (symbols_join_eq_nil_iff separator hrest).trans (solid_eq_nil_iff hrest).symm
    by_cases hr : (join separator as).symbols = []
    · rw [if_pos hr, hnil.mp hr]
      simp
    · have hne : (solid as).map symbols ≠ [] := fun h => hr (hnil.mpr (List.map_eq_nil_iff.mp h))
      rw [if_neg hr, List.intercalate_cons_of_ne_nil hne, symbols_join separator hrest]

/-- The parameters of joined fragments are those of all of them; empty ones have none. -/
theorem params_join (separator : String) {as : List Fragment} (has : ∀ a ∈ as, a.WellFormed) :
    (join separator as).params = as.flatMap params := by
  rw [(join_spec separator has).2.2, solid]
  induction as with
  | nil => rfl
  | cons a as ih =>
    have ih := ih fun b hb => has b (by simp [hb])
    by_cases h : a.isEmpty = true
    · have ha := has a (by simp)
      simp [h, ih, ha.params_eq_nil (ha.isEmpty_iff.mp h)]
    · simp [h, ih]

theorem params_join_cons (separator : String) {a : Fragment} {as : List Fragment}
    (has : ∀ b ∈ a :: as, b.WellFormed) :
    (join separator (a :: as)).params = a.params ++ (join separator as).params := by
  rw [params_join separator has, params_join separator fun b hb => has b (by simp [hb])]
  rfl

end Fragment

end Tabular
