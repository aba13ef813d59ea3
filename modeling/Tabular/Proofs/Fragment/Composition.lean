import Tabular.Proofs.Fragment.Symbols

/-!
# Fragments under composition

Fragments put together in any way have one form, and their texts are put together as they are.

- `Fragment.Built`: the fragments that there are, however they were built.
- `Fragment.eq_of_symbols`: fragments with the same symbols and parameters are the same fragment.
- `Fragment.marks`: the text of a fragment with its placeholders numbered. Behind another fragment
  the numbers go up by the number of its parameters (`marks_append`).
- `Fragment.composition_laws`: **fragments have one form, composing them is associative and has the
  empty fragment as its unit, and their texts follow each other**, the second one renumbered.
-/

namespace Tabular

namespace Fragment

/-- A fragment that was built from texts and values. -/
inductive Built : Fragment → Prop where
  | empty : Built empty
  | raw (text : String) : Built (raw text)
  | push {a : Fragment} (text : String) : Built a → Built (a ++ Fragment.raw text)
  | bind {a : Fragment} (v : Value) : Built a → Built (a ++ Fragment.bind v)
  | append {a b : Fragment} : Built a → Built b → Built (a ++ b)
  | join (separator : String) {as : List Fragment} :
    (∀ a ∈ as, Built a) → Built (join separator as)
  | parenthesized {a : Fragment} : Built a → Built a.parenthesized

theorem Built.wellFormed {a : Fragment} (h : a.Built) : a.WellFormed := by
  induction h with
  | empty => exact wellFormed_empty
  | raw text => exact wellFormed_raw text
  | push text _ ih => exact ih.append (wellFormed_raw text)
  | bind v _ ih => exact ih.append (wellFormed_bind v)
  | append _ _ iha ihb => exact iha.append ihb
  | join separator _ ih => exact wellFormed_join separator ih
  | parenthesized _ ih => exact ih.parenthesized

/-! ## One form -/

theorem Canonical.raw_empty_notMem {ps : List Part} (h : Canonical ps) : .raw "" ∉ ps := by
  induction ps with
  | nil => exact List.not_mem_nil
  | cons p ps ih =>
    cases p with
    | placeholder => simpa using ih h
    | raw text => simpa using ⟨h.1, ih h.2.2⟩

theorem Canonical.apart {before after : List Part} {s t : String} :
    ¬ Canonical (before ++ .raw s :: .raw t :: after) := by
  induction before with
  | nil => exact fun h => h.2.1 t rfl
  | cons p before ih =>
    cases p with
    | placeholder => exact ih
    | raw text => exact fun h => ih h.2.2

theorem count_placeholder (ps : List Part) :
    ps.count .placeholder = (ps.flatMap partSymbols).count .hole := by
  induction ps with
  | nil => rfl
  | cons p ps ih =>
    rw [List.flatMap_cons, List.count_append, ← ih]
    cases p with
    | placeholder => simp [partSymbols, Nat.add_comm]
    | raw text => simp [partSymbols, List.count_eq_zero_of_not_mem (hole_not_mem_chars text)]

/-- A text ends where the symbols after it do not go on with a character. -/
theorem map_char_append_inj {cs ds : List Char} {ss ts : List Symbol}
    (hs : ∀ c, ss.head? ≠ some (.char c)) (ht : ∀ c, ts.head? ≠ some (.char c))
    (h : cs.map .char ++ ss = ds.map .char ++ ts) : cs = ds ∧ ss = ts := by
  induction cs generalizing ds with
  | nil =>
    cases ds with
    | nil => exact ⟨rfl, h⟩
    | cons d ds => exact absurd (congrArg List.head? h) (hs d)
  | cons c cs ih =>
    cases ds with
    | nil => exact absurd (congrArg List.head? h).symm (ht c)
    | cons d ds =>
      obtain ⟨hc, hrest⟩ := List.cons.inj h
      obtain ⟨rfl, hss⟩ := ih hrest
      exact ⟨congrArg (· :: cs) (Symbol.char.inj hc), hss⟩

theorem chars_append_inj {s t : String} {ss ts : List Symbol}
    (hs : ∀ c, ss.head? ≠ some (.char c)) (ht : ∀ c, ts.head? ≠ some (.char c))
    (h : chars s ++ ss = chars t ++ ts) : s = t ∧ ss = ts := by
  rw [← String.toList_inj]
  exact map_char_append_inj hs ht h

theorem Canonical.head?_ne {text : String} {ps : List Part} (h : Canonical (.raw text :: ps))
    (c : Char) : (ps.flatMap partSymbols).head? ≠ some (.char c) := by
  match ps, h with
  | [], _ => simp
  | .placeholder :: _, _ => simp [partSymbols]
  | .raw next :: _, h => exact absurd rfl (h.2.1 next)

/-- Parts in the one form are told by their symbols. -/
theorem eq_of_canonical :
    ∀ {ps qs : List Part}, Canonical ps → Canonical qs →
      ps.flatMap partSymbols = qs.flatMap partSymbols → ps = qs
  | [], _, _, hq, h => ((flatMap_eq_nil_iff hq).mp h.symm).symm
  | _ :: _, [], hp, _, h => (flatMap_eq_nil_iff hp).mp h
  | .placeholder :: ps, .placeholder :: qs, hp, hq, h =>
    congrArg (.placeholder :: ·) (@eq_of_canonical ps qs hp hq (List.cons.inj h).2)
  | .placeholder :: _, .raw text :: _, _, hq, h =>
    -- a placeholder comes after no text, and the text is not empty
    absurd (chars_append_inj (s := "") (by simp) hq.head?_ne h).1.symm hq.1
  | .raw text :: _, .placeholder :: _, hp, _, h =>
    absurd (chars_append_inj (t := "") hp.head?_ne (by simp) h).1 hp.1
  | .raw s :: ps, .raw t :: qs, hp, hq, h => by
    obtain ⟨rfl, hrest⟩ := chars_append_inj hp.head?_ne hq.head?_ne h
    rw [eq_of_canonical hp.2.2 hq.2.2 hrest]

/-- Fragments with the same symbols and parameters are the same fragment. -/
theorem eq_of_symbols {a b : Fragment} (ha : a.WellFormed) (hb : b.WellFormed)
    (hs : a.symbols = b.symbols) (hp : a.params = b.params) : a = b := by
  have hparts := eq_of_canonical ha.canonical hb.canonical hs
  cases a
  cases b
  cases hparts
  cases hp
  rfl

theorem append_assoc {a b c : Fragment} (ha : a.WellFormed) (hb : b.WellFormed)
    (hc : c.WellFormed) : a ++ b ++ c = a ++ (b ++ c) :=
  eq_of_symbols ((ha.append hb).append hc) (ha.append (hb.append hc)) (by simp) (by simp)

theorem append_empty {a : Fragment} (ha : a.WellFormed) : a ++ empty = a :=
  eq_of_symbols (ha.append wellFormed_empty) ha (by simp) (by simp)

theorem empty_append (a : Fragment) : empty ++ a = a := rfl

theorem eq_iff {a b : Fragment} (ha : a.WellFormed) (hb : b.WellFormed) :
    a = b ↔ a.symbols = b.symbols ∧ a.params = b.params :=
  ⟨fun h => h ▸ ⟨rfl, rfl⟩, fun h => eq_of_symbols ha hb h.1 h.2⟩

/-- Fragments are equal if their symbols are and their parameters are equal as values. -/
theorem beq_iff {a b : Fragment} (ha : a.WellFormed) (hb : b.WellFormed) :
    (a == b) = true ↔ a.symbols = b.symbols ∧ (a.params == b.params) = true := by
  have hbeq : (a == b) = (a.parts == b.parts && a.params == b.params) := rfl
  rw [hbeq, Bool.and_eq_true, beq_iff_eq]
  refine and_congr_left fun _ => ⟨fun h => ?_, eq_of_canonical ha.canonical hb.canonical⟩
  rw [symbols, h, symbols]

/-! ## Texts -/

theorem write_eq_nil_iff {style : Placeholder} {index : Nat} {s : List Symbol} :
    write style index s = [] ↔ s = [] := by
  cases s with
  | nil => exact iff_of_true rfl rfl
  | cons x s =>
    cases x with
    | char c => simp [write]
    | hole => cases style <;> simp [write, placeholderText]

theorem isEmpty_iff_render {a : Fragment} (ha : a.WellFormed) (style : Placeholder) :
    a.isEmpty = true ↔ a.render style = "" := by
  rw [ha.isEmpty_iff, ← String.toList_inj, toList_render]
  exact write_eq_nil_iff.symm

/-- One place of a text: a character, or the placeholder with this number. -/
inductive Mark where
  | char (c : Char)
  | number (n : Nat)
deriving DecidableEq

namespace Mark

/-- The place that is marked. -/
def symbol : Mark → Symbol
  | char c => .char c
  | number _ => .hole

/-- The number of a placeholder. -/
def number? : Mark → Option Nat
  | char _ => none
  | number n => some n

/-- The mark with its number, if it has one, raised. -/
def raised (k : Nat) : Mark → Mark
  | char c => char c
  | number n => number (n + k)

/-- What is written for a mark. -/
def text (style : Placeholder) : Mark → List Char
  | char c => [c]
  | number n =>
    match style with
    | .question => ['?']
    | .numbered => '$' :: (toString n).toList

end Mark

/-- The marks of symbols that come after `index` placeholders. -/
def marksFrom : Nat → List Symbol → List Mark
  | _, [] => []
  | index, .char c :: s => .char c :: marksFrom index s
  | index, .hole :: s => .number (index + 1) :: marksFrom (index + 1) s

/-- The marks of a fragment: its placeholders are numbered from one. -/
def marks (a : Fragment) : List Mark := marksFrom 0 a.symbols

theorem map_symbol_marksFrom (index : Nat) (s : List Symbol) :
    (marksFrom index s).map Mark.symbol = s := by
  induction s generalizing index with
  | nil => rfl
  | cons x s ih => cases x <;> simp [marksFrom, Mark.symbol, ih]

theorem numbers_marksFrom (index : Nat) (s : List Symbol) :
    (marksFrom index s).filterMap Mark.number? = List.range' (index + 1) (s.count .hole) := by
  induction s generalizing index with
  | nil => rfl
  | cons x s ih =>
    cases x with
    | char c =>
      rw [marksFrom, List.filterMap_cons_none rfl, ih, List.count_cons_of_ne (by simp)]
    | hole =>
      have hnumber : Mark.number? (.number (index + 1)) = some (index + 1) := rfl
      rw [marksFrom, List.filterMap_cons_some hnumber, ih, List.count_cons_self, List.range'_succ]

theorem write_eq_marksFrom (style : Placeholder) (index : Nat) (s : List Symbol) :
    write style index s = (marksFrom index s).flatMap (Mark.text style) := by
  induction s generalizing index with
  | nil => rfl
  | cons x s ih =>
    cases x with
    | char c => simp [write, marksFrom, Mark.text, ih]
    | hole => cases style <;> simp [write, marksFrom, Mark.text, placeholderText, ih]

theorem marksFrom_append (index : Nat) (s t : List Symbol) :
    marksFrom index (s ++ t) = marksFrom index s ++ marksFrom (index + s.count .hole) t := by
  induction s generalizing index with
  | nil => rfl
  | cons x s ih =>
    cases x with
    | char c => simp [marksFrom, ih]
    | hole => simp [marksFrom, ih, Nat.add_comm, Nat.add_left_comm]

theorem marksFrom_add (index n : Nat) (s : List Symbol) :
    marksFrom (index + n) s = (marksFrom index s).map (Mark.raised n) := by
  induction s generalizing index with
  | nil => rfl
  | cons x s ih =>
    cases x with
    | char c => simp [marksFrom, Mark.raised, ih]
    | hole => simp [marksFrom, Mark.raised, ← ih, Nat.add_right_comm]

/-- Behind another fragment, placeholders are numbered on from its last one. -/
theorem marks_append {a : Fragment} (ha : a.WellFormed) (b : Fragment) :
    (a ++ b).marks = a.marks ++ b.marks.map (Mark.raised a.params.length) := by
  rw [marks, symbols_append, marksFrom_append, ha.count_holes, marksFrom_add]
  rfl

theorem toList_render_marks (a : Fragment) (style : Placeholder) :
    (a.render style).toList = a.marks.flatMap (Mark.text style) := by
  rw [toList_render, write_eq_marksFrom]
  rfl

/-- Question marks are not numbered: texts with them follow each other as they are. -/
theorem render_append_question (a b : Fragment) :
    (a ++ b).render .question = a.render .question ++ b.render .question := by
  rw [← String.toList_inj, String.toList_append, toList_render_question, toList_render_question,
    toList_render_question, symbols_append, List.map_append]

/-! ## What holds of fragments -/

/-- What every fragment is like. -/
structure Sound (a : Fragment) : Prop where
  /-- No text among the parts is empty. -/
  solid : .raw "" ∉ a.parts
  /-- No two texts stand next to each other. -/
  apart before s t after : a.parts ≠ before ++ .raw s :: .raw t :: after
  /-- There is one parameter for each placeholder. -/
  placeholders : a.parts.count .placeholder = a.params.length
  /-- Instants are bound as text. -/
  kept t : .timestamp t ∉ a.params
  isEmpty_iff style : a.isEmpty = true ↔ a.render style = ""
  /-- The placeholders of the text are numbered from one. -/
  symbols_eq : a.marks.map Mark.symbol = a.symbols
  numbers_eq : a.marks.filterMap Mark.number? = List.range' 1 a.params.length
  toList_eq style : (a.render style).toList = a.marks.flatMap (Mark.text style)

theorem WellFormed.sound {a : Fragment} (h : a.WellFormed) : a.Sound where
  solid := h.canonical.raw_empty_notMem
  apart _ _ _ _ hparts := Canonical.apart (hparts ▸ h.canonical)
  placeholders := (count_placeholder a.parts).trans h.count_holes
  kept _ ht := h.kind_ne _ ht rfl
  isEmpty_iff := isEmpty_iff_render h
  symbols_eq := map_symbol_marksFrom 0 a.symbols
  numbers_eq := (numbers_marksFrom 0 a.symbols).trans (by rw [h.count_holes])
  toList_eq := toList_render_marks a

/-- **Fragments compose.** They have one form, so that they are equal if they show the same symbols
and parameters; putting one after another is associative, with the empty fragment as its unit; and
the text of both is the one text followed by the other, whose placeholders are numbered on. -/
theorem composition_laws {a b c : Fragment} (ha : a.Built) (hb : b.Built) (hc : c.Built) :
    a.Sound ∧
    a ++ b ++ c = a ++ (b ++ c) ∧ empty ++ a = a ∧ a ++ empty = a ∧
    (a = b ↔ a.symbols = b.symbols ∧ a.params = b.params) ∧
    ((a == b) = true ↔ a.symbols = b.symbols ∧ (a.params == b.params) = true) ∧
    (a ++ b).render .question = a.render .question ++ b.render .question ∧
    ((a ++ b).render .numbered).toList = (a.render .numbered).toList ++
      (b.marks.map (Mark.raised a.params.length)).flatMap (Mark.text .numbered) := by
  have ha := ha.wellFormed
  have hb := hb.wellFormed
  refine ⟨ha.sound, append_assoc ha hb hc.wellFormed, empty_append a, append_empty ha,
    eq_iff ha hb, beq_iff ha hb, render_append_question a b, ?_⟩
  rw [toList_render_marks, marks_append ha, List.flatMap_append, toList_render_marks a]

/-- Two comparisons joined, the second one after an empty fragment. -/
def sampledComparisons : Fragment :=
  join " AND " [raw "a = " ++ bind (.integer 1), empty, (raw "b" ++ raw " = ").parenthesized]

theorem built_sampledComparisons : sampledComparisons.Built := by
  refine .join _ fun a h => ?_
  rw [List.mem_cons, List.mem_cons, List.mem_singleton] at h
  rcases h with rfl | rfl | rfl
  · exact .bind _ (.raw _)
  · exact .empty
  · exact .parenthesized (.push _ (.raw _))

/-- A text that goes on where the comparisons end, with a placeholder of its own. -/
def sampledEnd : Fragment := raw " OR c > " ++ bind (.text "x")

theorem built_sampledEnd : sampledEnd.Built := .bind _ (.raw _)

theorem composition_laws_sampled :
    sampledComparisons.Built ∧ sampledEnd.Built ∧
    sampledComparisons.Sound ∧
    sampledComparisons ++ sampledEnd ++ sampledEnd =
      sampledComparisons ++ (sampledEnd ++ sampledEnd) ∧
    (sampledComparisons ++ sampledEnd).parts =
      [.raw "a = ", .placeholder, .raw " AND (b = ) OR c > ", .placeholder] ∧
    (sampledComparisons ++ sampledEnd).render .question =
      sampledComparisons.render .question ++ sampledEnd.render .question ∧
    ((sampledComparisons ++ sampledEnd).render .numbered).toList =
      "a = $1 AND (b = ) OR c > $2".toList := by
  obtain ⟨hsound, hassoc, -, -, -, -, hquestion, hnumbered⟩ :=
    composition_laws built_sampledComparisons built_sampledEnd built_sampledEnd
  refine ⟨built_sampledComparisons, built_sampledEnd, hsound, hassoc, ?_, hquestion,
    hnumbered.trans ?_⟩
  · decide
  · decide

end Fragment

end Tabular
