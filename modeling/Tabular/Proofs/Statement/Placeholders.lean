import Tabular.Proofs.Fragment.Symbols

/-!
# Reading placeholders back out of a text

A text with numbered placeholders can be scanned for them, and the placeholders found are the ones
that were written as long as no other text looks like one.

- `dollarRuns`, `asking`: what a scan finds in a text with numbered placeholders, and the same text
  with question marks in their place.
- `Fragment.Legible`: no character of the text is a mark of a placeholder, and no digit follows a
  placeholder. Building fragments from texts and values keeps to it.
- `Fragment.Aligned`: the rendered texts and the parameters fit together, each placeholder found in
  the text standing for the parameter of its number (`Carries.aligned`).
-/

namespace Tabular

/-- The runs of digits after the dollar signs of a text, from left to right, each as long as it
can be. -/
def dollarRuns : List Char → List (List Char)
  | [] => []
  | c :: cs => if c = '$' then cs.takeWhile Char.isDigit :: dollarRuns cs else dollarRuns cs

/-- The text with a question mark in place of every dollar sign and the longest run of digits
after it. -/
def asking : List Char → List Char
  | [] => []
  | c :: cs => if c = '$' then '?' :: asking (cs.dropWhile Char.isDigit) else c :: asking cs
termination_by cs => cs.length
decreasing_by
  · exact Nat.lt_succ_of_le (List.dropWhile_sublist _).length_le
  · exact Nat.lt_succ_self _

theorem dollarRuns_digits_append {ds : List Char} (hds : ∀ c ∈ ds, c.isDigit = true)
    (cs : List Char) : dollarRuns (ds ++ cs) = dollarRuns cs := by
  induction ds with
  | nil => rfl
  | cons d ds ih =>
    have hd : d ≠ '$' := by
      rintro rfl
      exact absurd (hds '$' (by simp)) (by decide)
    rw [List.cons_append, dollarRuns, if_neg hd]
    exact ih fun c hc => hds c (by simp [hc])

namespace Fragment

/-! ## Legible symbols -/

/-- The symbols do not begin with a digit, so they may follow a placeholder. -/
def NoDigitHead (s : List Symbol) : Prop := ∀ c, s.head? = some (.char c) → c.isDigit = false

/-- No character is a mark of a placeholder, and no digit follows a placeholder. -/
def Legible : List Symbol → Prop
  | [] => True
  | .char c :: s => c ≠ '?' ∧ c ≠ '$' ∧ Legible s
  | .hole :: s => NoDigitHead s ∧ Legible s

/-- The text has no mark of a placeholder in it. -/
def Unmarked (text : String) : Prop := '?' ∉ text.toList ∧ '$' ∉ text.toList

instance (text : String) : Decidable (Unmarked text) := by unfold Unmarked; infer_instance

theorem unmarked_empty : Unmarked "" := by decide

@[simp] theorem unmarked_append {s t : String} : Unmarked (s ++ t) ↔ Unmarked s ∧ Unmarked t := by
  simp only [Unmarked, String.toList_append, List.mem_append, not_or]
  constructor
  · rintro ⟨⟨hask, hask'⟩, hdollar, hdollar'⟩
    exact ⟨⟨hask, hdollar⟩, hask', hdollar'⟩
  · rintro ⟨⟨hask, hdollar⟩, hask', hdollar'⟩
    exact ⟨⟨hask, hask'⟩, hdollar, hdollar'⟩

theorem noDigitHead_empty : NoDigitHead (chars "") := nofun

theorem noDigitHead_append {s t : List Symbol} (hs : NoDigitHead s) (ht : NoDigitHead t) :
    NoDigitHead (s ++ t) := by
  cases s with
  | nil => exact ht
  | cons x s => exact hs

theorem legible_append {s t : List Symbol} (hs : Legible s) (ht : Legible t)
    (hhead : NoDigitHead t) : Legible (s ++ t) := by
  induction s with
  | nil => exact ht
  | cons x s ih =>
    cases x with
    | char c => exact ⟨hs.1, hs.2.1, ih hs.2.2⟩
    | hole => exact ⟨noDigitHead_append hs.1 hhead, ih hs.2⟩

/-- After a text anything legible is legible, as no placeholder is cut off by it. -/
theorem legible_chars_append {text : String} (h : Unmarked text) {s : List Symbol}
    (hs : Legible s) : Legible (chars text ++ s) := by
  obtain ⟨hask, hdollar⟩ := h
  unfold chars
  generalize text.toList = cs at hask hdollar ⊢
  induction cs with
  | nil => exact hs
  | cons c cs ih =>
    refine ⟨?_, ?_, ih (fun hm => hask (by simp [hm])) (fun hm => hdollar (by simp [hm]))⟩
    · rintro rfl
      exact hask (by simp)
    · rintro rfl
      exact hdollar (by simp)

theorem head?_write_numbered {index : Nat} {s : List Symbol} (h : NoDigitHead s) :
    ∀ c, (write .numbered index s).head? = some c → c.isDigit = false := by
  intro c hc
  match s with
  | [] => cases hc
  | .char d :: s =>
    cases hc
    exact h _ rfl
  | .hole :: s =>
    -- a placeholder begins with a dollar sign
    simp only [write, placeholderText, String.toList_append] at hc
    cases hc
    rfl

theorem isDigit_of_mem_repr {n : Nat} {c : Char} (h : c ∈ (toString n).toList) :
    c.isDigit = true := by
  rw [Nat.toString_eq_repr, Nat.toList_repr] at h
  exact Nat.isDigit_of_mem_toDigits (by decide) (by decide) h

theorem write_hole_numbered (index : Nat) (s : List Symbol) :
    write .numbered index (.hole :: s) =
      '$' :: ((toString (index + 1)).toList ++ write .numbered (index + 1) s) := by
  simp [write, placeholderText]

/-- A scan of legible symbols finds their placeholders, numbered as they were written. -/
theorem dollarRuns_write {s : List Symbol} (hs : Legible s) (index : Nat) :
    dollarRuns (write .numbered index s) =
      (List.range (s.count .hole)).map fun k => (toString (index + k + 1)).toList := by
  induction s generalizing index with
  | nil => rfl
  | cons x s ih =>
    cases x with
    | char c =>
      rw [write, dollarRuns, if_neg hs.2.1, ih hs.2.2]
      rfl
    | hole =>
      have hdigits : ∀ c ∈ (toString (index + 1)).toList, c.isDigit = true := fun c hc =>
        isDigit_of_mem_repr hc
      -- the run ends with the number, since no digit follows it, and the number holds no dollar
      rw [write_hole_numbered, dollarRuns, if_pos rfl,
        Text.takeWhile_isDigit_append hdigits (head?_write_numbered hs.1),
        dollarRuns_digits_append hdigits, ih hs.2, List.count_cons_self, List.range_succ_eq_map]
      simp [Function.comp_def, Nat.add_assoc, Nat.add_comm, Nat.add_left_comm]

/-- Question marks in place of the numbered placeholders give the text in the other style. -/
theorem asking_write {s : List Symbol} (hs : Legible s) (index : Nat) :
    asking (write .numbered index s) = s.map Symbol.asked := by
  induction s generalizing index with
  | nil => rw [write, asking, List.map_nil]
  | cons x s ih =>
    cases x with
    | char c =>
      rw [write, asking, if_neg hs.2.1, ih hs.2.2]
      rfl
    | hole =>
      have hdigits : ∀ c ∈ (toString (index + 1)).toList, c.isDigit = true := fun c hc =>
        isDigit_of_mem_repr hc
      rw [write_hole_numbered, asking, if_pos rfl,
        Text.dropWhile_isDigit_append hdigits (head?_write_numbered hs.1), ih hs.2]
      rfl

/-- The question marks of legible symbols are their placeholders. -/
theorem count_asked {s : List Symbol} (hs : Legible s) :
    (s.map Symbol.asked).count '?' = s.count .hole := by
  induction s with
  | nil => rfl
  | cons x s ih =>
    cases x with
    | char c =>
      have hc : Symbol.asked (.char c) ≠ '?' := hs.1
      rw [List.map_cons, List.count_cons_of_ne hc, ih hs.2.2, List.count_cons_of_ne (by simp)]
    | hole =>
      rw [List.map_cons, Symbol.asked, List.count_cons_self, List.count_cons_self, ih hs.2]

/-! ## Fragments that carry scalars -/

/-- The text has no mark of a placeholder in it and begins with something that is not a digit, so
that it may follow a placeholder. -/
def Separates (text : String) : Prop := Unmarked text ∧ ∃ c, text.toList.head? = some c ∧
  c.isDigit = false

/-- A fragment that binds these scalars, in this order, and leaves its placeholders legible. -/
structure Carries (a : Fragment) (scalars : List Value) : Prop where
  wellFormed : a.WellFormed
  legible : Legible a.symbols
  params_eq : a.params = scalars.map Value.encoded

/-- The texts of a statement in both styles and its parameters fit together: a scan finds the
placeholders `$1` to `$n`, one for each parameter, and nothing else; the other style has a question
mark in place of each and no other one; and the parameters are the scalars in the form they are
kept in. -/
structure Aligned (a : Fragment) (scalars : List Value) : Prop where
  numbered : dollarRuns (a.render .numbered).toList =
    (List.range a.params.length).map fun k => (toString (k + 1)).toList
  asked : (a.render .question).toList.count '?' = a.params.length
  renumbered : asking (a.render .numbered).toList = (a.render .question).toList
  params_eq : a.params = scalars.map Value.encoded

theorem Carries.aligned {a : Fragment} {scalars : List Value} (h : Carries a scalars) :
    Aligned a scalars where
  numbered := by
    rw [toList_render, dollarRuns_write h.legible, h.wellFormed.count_holes]
    simp only [Nat.zero_add]
  asked := by
    rw [toList_render_question, count_asked h.legible, h.wellFormed.count_holes]
  renumbered := by
    rw [toList_render, asking_write h.legible, toList_render_question]
  params_eq := h.params_eq

theorem noDigitHead_chars_append {text : String} (h : Separates text) (s : List Symbol) :
    NoDigitHead (chars text ++ s) := by
  obtain ⟨-, c, hc, hdigit⟩ := h
  intro d hd
  unfold chars at hd
  cases ht : text.toList with
  | nil =>
    rw [ht] at hc
    cases hc
  | cons b bs =>
    rw [ht] at hc hd
    cases hc
    cases hd
    exact hdigit

theorem Separates.noDigitHead {text : String} (h : Separates text) :
    NoDigitHead (chars text) := by
  have hhead := noDigitHead_chars_append h []
  rwa [List.append_nil] at hhead

theorem Separates.append {s t : String} (hs : Separates s) (ht : Unmarked t) :
    Separates (s ++ t) := by
  obtain ⟨hunmarked, c, hc, hdigit⟩ := hs
  refine ⟨unmarked_append.mpr ⟨hunmarked, ht⟩, c, ?_, hdigit⟩
  rw [String.toList_append, List.head?_append, hc]
  rfl

theorem carries_raw {text : String} (h : Unmarked text) : Carries (raw text) [] where
  wellFormed := wellFormed_raw text
  legible := by
    have hlegible := legible_chars_append h (s := []) trivial
    rwa [List.append_nil, ← symbols_raw] at hlegible
  params_eq := rfl

theorem carries_bind (v : Value) : Carries (bind v) [v] where
  wellFormed := wellFormed_bind v
  legible := ⟨nofun, trivial⟩
  params_eq := rfl

theorem Carries.append {a b : Fragment} {vs ws : List Value} (ha : Carries a vs)
    (hb : Carries b ws) (hhead : NoDigitHead b.symbols) : Carries (a ++ b) (vs ++ ws) where
  wellFormed := ha.wellFormed.append hb.wellFormed
  legible := by
    rw [symbols_append]
    exact legible_append ha.legible hb.legible hhead
  params_eq := by rw [params_append, ha.params_eq, hb.params_eq, List.map_append]

/-- A text may be put in front of anything. -/
theorem Carries.raw_append {text : String} (h : Unmarked text) {a : Fragment} {vs : List Value}
    (ha : Carries a vs) : Carries (raw text ++ a) vs where
  wellFormed := (wellFormed_raw text).append ha.wellFormed
  legible := by
    rw [symbols_append, symbols_raw]
    exact legible_chars_append h ha.legible
  params_eq := ha.params_eq

/-- A text that does not begin with a digit may be put after anything. -/
theorem Carries.append_raw {text : String} (h : Separates text) {a : Fragment} {vs : List Value}
    (ha : Carries a vs) : Carries (a ++ raw text) vs := by
  have hhead : NoDigitHead (raw text).symbols := by
    rw [symbols_raw]
    exact h.noDigitHead
  have happ := ha.append (carries_raw h.1) hhead
  rwa [List.append_nil] at happ

/-- With such a text between them anything may follow anything. -/
theorem Carries.append_raw_append {text : String} (h : Separates text) {a b : Fragment}
    {vs ws : List Value} (ha : Carries a vs) (hb : Carries b ws) :
    Carries (a ++ raw text ++ b) (vs ++ ws) where
  wellFormed := (ha.wellFormed.append (wellFormed_raw text)).append hb.wellFormed
  legible := by
    rw [symbols_append, symbols_append, symbols_raw, List.append_assoc]
    exact legible_append ha.legible (legible_chars_append h.1 hb.legible)
      (noDigitHead_chars_append h _)
  params_eq := by
    rw [params_append, params_append, params_raw, List.append_nil, ha.params_eq, hb.params_eq,
      List.map_append]

theorem Carries.parenthesized {a : Fragment} {vs : List Value} (ha : Carries a vs) :
    Carries a.parenthesized vs :=
  (ha.raw_append (by decide)).append_raw ⟨by decide, ')', rfl, rfl⟩

/-- Joined fragments carry the scalars of all of them in order. -/
theorem Carries.join {α : Type} {separator : String} (hsep : Separates separator)
    {f : α → Fragment} {g : α → List Value} {xs : List α}
    (h : ∀ x ∈ xs, Carries (f x) (g x)) :
    Carries (Fragment.join separator (xs.map f)) (xs.flatMap g) := by
  have hwell : ∀ {ys : List α}, (∀ y ∈ ys, Carries (f y) (g y)) →
      ∀ a ∈ ys.map f, a.WellFormed := by
    intro ys hys a ha
    obtain ⟨y, hy, rfl⟩ := List.mem_map.mp ha
    exact (hys y hy).wellFormed
  induction xs with
  | nil => exact ⟨wellFormed_empty, trivial, rfl⟩
  | cons x xs ih =>
    have hx := h x (by simp)
    have hrest := ih fun y hy => h y (by simp [hy])
    have hw : ∀ a ∈ f x :: xs.map f, a.WellFormed := hwell h
    refine ⟨wellFormed_join separator hw, ?_, ?_⟩
    · rw [List.map_cons, symbols_join_cons separator hw]
      split
      · exact hrest.legible
      · split
        · exact hx.legible
        · -- the separator keeps digits away from the last placeholder before it
          rw [List.append_assoc]
          exact legible_append hx.legible (legible_chars_append hsep.1 hrest.legible)
            (noDigitHead_chars_append hsep _)
    · rw [List.map_cons, params_join_cons separator hw, hx.params_eq, hrest.params_eq,
        List.flatMap_cons, List.map_append]

end Fragment

end Tabular
