import Mathlib.Data.List.Basic
import Tabular.Proofs.Fragment.Composition

/-!
# Joins of joins

How joined fragments are joined again, and how a join is written.

- `Fragment.glue`: two runs of symbols with a separator where both are there. It is associative, so
  that it does not matter in which groups fragments are joined.
- `Fragment.join_flatten`: **joins joined by the same separator are one join.**
- `Fragment.join_flatMap`: so is a join of what is itself joined from pieces.
- `Fragment.render_join`: what is written for joined fragments is what is written for each one that
  is not empty, with the separator between.
- `Fragment.Joined`: the text and the parameters of a join, and when it is empty.
-/

namespace Tabular

namespace Fragment

/-- Two runs of symbols with a separator between them, if both are there. -/
def glue (separator : String) (s t : List Symbol) : List Symbol :=
  if s = [] then t else if t = [] then s else s ++ chars separator ++ t

@[simp] theorem glue_nil_left (separator : String) (t : List Symbol) :
    glue separator [] t = t := rfl

@[simp] theorem glue_nil_right (separator : String) (s : List Symbol) :
    glue separator s [] = s := by
  by_cases h : s = []
  · rw [glue, if_pos h, h]
  · rw [glue, if_neg h, if_pos rfl]

theorem glue_assoc (separator : String) (s t u : List Symbol) :
    glue separator (glue separator s t) u = glue separator s (glue separator t u) := by
  by_cases hs : s = []
  · rw [hs, glue_nil_left, glue_nil_left]
  · by_cases ht : t = []
    · rw [ht, glue_nil_right, glue_nil_left]
    · by_cases hu : u = []
      · rw [hu, glue_nil_right, glue_nil_right]
      · simp [glue, hs, ht, hu]

section

variable (separator : String)

theorem symbols_join_append {as bs : List Fragment} (h : ∀ a ∈ as ++ bs, a.WellFormed) :
    (join separator (as ++ bs)).symbols =
      glue separator (join separator as).symbols (join separator bs).symbols := by
  induction as with
  | nil => rfl
  | cons a as ih =>
    have hleft : ∀ b ∈ a :: as, b.WellFormed := fun b hb => h b (List.mem_append_left bs hb)
    have hrest : ∀ b ∈ as ++ bs, b.WellFormed := fun b hb => h b (List.mem_cons_of_mem a hb)
    have hcons : (join separator (a :: as)).symbols =
        glue separator a.symbols (join separator as).symbols := symbols_join_cons separator hleft
    rw [hcons, glue_assoc, ← ih hrest]
    exact symbols_join_cons separator h

theorem wellFormed_flatten {ass : List (List Fragment)}
    (h : ∀ as ∈ ass, ∀ a ∈ as, a.WellFormed) : ∀ a ∈ ass.flatten, a.WellFormed := by
  intro a ha
  obtain ⟨as, has, ha⟩ := List.mem_flatten.mp ha
  exact h as has a ha

theorem wellFormed_map_join {ass : List (List Fragment)}
    (h : ∀ as ∈ ass, ∀ a ∈ as, a.WellFormed) :
    ∀ a ∈ ass.map (join separator), a.WellFormed := by
  intro a ha
  obtain ⟨as, has, rfl⟩ := List.mem_map.mp ha
  exact wellFormed_join separator (h as has)

theorem symbols_join_map_join {ass : List (List Fragment)}
    (h : ∀ as ∈ ass, ∀ a ∈ as, a.WellFormed) :
    (join separator (ass.map (join separator))).symbols =
      (join separator ass.flatten).symbols := by
  induction ass with
  | nil => rfl
  | cons as ass ih =>
    have hrest : ∀ bs ∈ ass, ∀ b ∈ bs, b.WellFormed :=
      fun bs hbs => h bs (List.mem_cons_of_mem as hbs)
    rw [List.flatten_cons, symbols_join_append separator (wellFormed_flatten h), ← ih hrest]
    exact symbols_join_cons separator (wellFormed_map_join separator h)

/-- Joins joined by the same separator are one join. -/
theorem join_flatten {ass : List (List Fragment)} (h : ∀ as ∈ ass, ∀ a ∈ as, a.WellFormed) :
    join separator (ass.map (join separator)) = join separator ass.flatten := by
  have hflat := wellFormed_flatten h
  have hjoins := wellFormed_map_join separator h
  have hparams : ∀ as ∈ ass, (join separator as).params = as.flatMap params :=
    fun as has => params_join separator (h as has)
  refine eq_of_symbols (wellFormed_join separator hjoins) (wellFormed_join separator hflat)
    (symbols_join_map_join separator h) ?_
  rw [params_join separator hjoins, params_join separator hflat, List.flatMap_map,
    List.flatMap_congr hparams, ← List.flatMap_id, List.flatMap_assoc]
  rfl

/-- Where every fragment is joined from pieces, joining the fragments joins the pieces. -/
theorem join_flatMap {α : Type} {f : α → Fragment} {pieces : α → List Fragment}
    (heq : ∀ x, f x = join separator (pieces x)) (h : ∀ x, ∀ p ∈ pieces x, p.WellFormed)
    (xs : List α) : join separator (xs.map f) = join separator (xs.flatMap pieces) := by
  have hwell : ∀ ps ∈ xs.map pieces, ∀ p ∈ ps, p.WellFormed := by
    intro ps hps
    obtain ⟨x, -, rfl⟩ := List.mem_map.mp hps
    exact h x
  have hjoins : xs.map f = (xs.map pieces).map (join separator) := by
    rw [List.map_map]
    exact List.map_congr_left fun x _ => heq x
  rw [hjoins, join_flatten separator hwell, List.flatMap_def]

theorem isEmpty_join_iff {as : List Fragment} (h : ∀ a ∈ as, a.WellFormed) :
    (join separator as).isEmpty = true ↔ ∀ a ∈ as, a.isEmpty = true := by
  rw [(wellFormed_join separator h).isEmpty_iff, symbols_join_eq_nil_iff separator h]
  exact forall₂_congr fun a ha => (h a ha).isEmpty_iff.symm

/-- A join of fragments that are not empty is empty only if there are none. -/
theorem isEmpty_join_of_solid {as : List Fragment}
    (h : ∀ a ∈ as, a.WellFormed ∧ a.symbols ≠ []) :
    (join separator as).isEmpty = as.isEmpty := by
  rw [Bool.eq_iff_iff, isEmpty_join_iff separator fun a ha => (h a ha).1, List.isEmpty_iff,
    List.eq_nil_iff_forall_not_mem]
  refine forall₂_congr fun a ha => iff_of_false (fun hempty => ?_) fun hfalse => hfalse
  exact (h a ha).2 ((h a ha).1.isEmpty_iff.mp hempty)

/-- One fragment is the join of itself. -/
theorem join_singleton {a : Fragment} (h : a.WellFormed) : join separator [a] = a := by
  have hall : ∀ b ∈ [a], b.WellFormed := List.forall_mem_singleton.mpr h
  refine eq_of_symbols (wellFormed_join separator hall) h ?_ ?_
  · rw [symbols_join_cons separator hall]
    by_cases hnil : a.symbols = []
    · rw [if_pos hnil, hnil]
      rfl
    · rw [if_neg hnil]
      exact if_pos rfl
  · rw [params_join separator hall, List.flatMap_singleton]

end

/-! ## Joins as they are written -/

theorem map_asked_intercalate (separator : String) (ss : List (List Symbol)) :
    ((chars separator).intercalate ss).map Symbol.asked =
      separator.toList.intercalate (ss.map (List.map Symbol.asked)) := by
  induction ss with
  | nil => rfl
  | cons s ss ih =>
    cases ss with
    | nil => simp
    | cons t ss =>
      rw [List.intercalate_cons_cons, List.map_append, List.map_append, ih, map_asked_chars]
      simp only [List.map_cons, List.intercalate_cons_cons]

/-- What is written for joined fragments, where placeholders are question marks. -/
theorem render_join (separator : String) {as : List Fragment} (h : ∀ a ∈ as, a.WellFormed) :
    (join separator as).render .question =
      separator.intercalate ((solid as).map fun a => a.render .question) := by
  rw [← String.toList_inj, toList_render_question, symbols_join separator h,
    map_asked_intercalate, String.toList_intercalate, List.map_map, List.map_map]
  exact congrArg _ (List.map_congr_left fun a _ => (toList_render_question a).symm)

theorem solid_eq_self {as : List Fragment} (h : ∀ a ∈ as, a.WellFormed ∧ a.symbols ≠ []) :
    solid as = as :=
  List.filter_eq_self.mpr fun a ha => by
    rw [Bool.not_eq_true', Bool.eq_false_iff, Ne, (h a ha).1.isEmpty_iff]
    exact (h a ha).2

/-! ## What joins come to -/

/-- What a join comes to. -/
structure Joined (separator : String) (as : List Fragment) : Prop where
  /-- The text of each fragment that is not empty, with the separator between and nowhere else. -/
  text : (join separator as).render .question =
    separator.intercalate ((as.filter fun a => !a.isEmpty).map fun a => a.render .question)
  /-- The fragments that are left out are those without text. -/
  left_out a : a ∈ as → (a.isEmpty = true ↔ a.render .question = "")
  /-- The parameters of all fragments, in order. -/
  params : (join separator as).params = as.flatMap params
  isEmpty_iff : (join separator as).isEmpty = true ↔ ∀ a ∈ as, a.isEmpty = true

theorem joined (separator : String) {as : List Fragment} (h : ∀ a ∈ as, a.WellFormed) :
    Joined separator as where
  text := render_join separator h
  left_out a ha := isEmpty_iff_render (h a ha) .question
  params := params_join separator h
  isEmpty_iff := isEmpty_join_iff separator h

end Fragment

end Tabular
