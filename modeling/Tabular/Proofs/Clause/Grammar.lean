import Tabular.Condition

/-!
# The grammar of conditions

What a store reads in the text after `WHERE`. An expression is conjunctions joined by ` OR `, a
conjunction is atoms joined by ` AND `, and an atom is `1=1`, `1=0`, an expression in parentheses
or a comparison of a column with a placeholder.

- `Clause.Tree`: the parse trees, by rank; a tree can only be built the way the grammar allows.
- `Clause.Tree.text`, `Clause.Tree.eval`: the text that a tree parses, and what it comes to in
  three-valued logic when each placeholder takes the next parameter.
- `Clause.Tree.text_injective`: a text has at most one parse tree, so that AND binding tighter
  than OR and the placement of parentheses leave no choice.
-/

namespace Tabular

/-- The truth values of comparisons; a comparison with null is unknown. -/
inductive Truth where
  | fails
  | unknown
  | holds
deriving DecidableEq

namespace Truth

/-- Both hold: the lesser of the two in the order fails, unknown, holds. -/
def and : Truth → Truth → Truth
  | fails, _ | _, fails => fails
  | holds, holds => holds
  | _, _ => unknown

/-- One of both holds: the greater of the two. -/
def or : Truth → Truth → Truth
  | holds, _ | _, holds => holds
  | fails, fails => fails
  | _, _ => unknown

/-- All hold; nothing is asked by an empty list. -/
def all (ts : List Truth) : Truth := ts.foldr and holds

/-- At least one holds; an empty list has none. -/
def any (ts : List Truth) : Truth := ts.foldr or fails

@[simp] theorem holds_and (t : Truth) : holds.and t = t := by cases t <;> rfl

@[simp] theorem and_holds (t : Truth) : t.and holds = t := by cases t <;> rfl

@[simp] theorem or_fails (t : Truth) : t.or fails = t := by cases t <;> rfl

theorem and_assoc (s t u : Truth) : (s.and t).and u = s.and (t.and u) := by
  cases s <;> cases t <;> cases u <;> rfl

theorem or_assoc (s t u : Truth) : (s.or t).or u = s.or (t.or u) := by
  cases s <;> cases t <;> cases u <;> rfl

@[simp] theorem all_cons (t : Truth) (ts : List Truth) : all (t :: ts) = t.and (all ts) := rfl

end Truth

namespace Clause

/-! ## Plain identifiers -/

/-- The character may begin an identifier: a letter, an underscore, or anything beyond ASCII. -/
def isNameStart (c : Char) : Bool := c.isAlpha || c == '_' || decide (128 ≤ c.toNat)

/-- The character may stand in an identifier. -/
def isNamePart (c : Char) : Bool := isNameStart c || c.isDigit || c == '$'

/-- The characters are what is left of identifiers joined by dots; at the start of an identifier
if `first`. -/
def isDotted : Bool → List Char → Bool
  | first, [] => !first
  | first, c :: cs =>
    if c = '.' then !first && isDotted true cs
    else (if first then isNameStart c else isNamePart c) && isDotted false cs

/-- The name is an identifier, or several joined by dots, and none of the words that join
conditions. -/
def IsPlain (name : String) : Prop :=
  isDotted true name.toList = true ∧ name ≠ "AND" ∧ name ≠ "OR"

instance (name : String) : Decidable (IsPlain name) := by unfold IsPlain; infer_instance

/-- A name that the grammar reads as a column. -/
@[ext] structure ColumnName where
  name : String
  isPlain : IsPlain name

/-- A text that begins where an identifier has to begins with a character that may. -/
theorem exists_cons_of_isDotted {cs : List Char} (h : isDotted true cs = true) :
    ∃ c ds, cs = c :: ds ∧ isNameStart c = true := by
  cases cs with
  | nil => cases h
  | cons c ds =>
    refine ⟨c, ds, rfl, ?_⟩
    rw [isDotted] at h
    split at h
    · cases h
    · exact (Bool.and_eq_true_iff.mp h).1

theorem blank_not_mem_of_isDotted {first : Bool} {cs : List Char}
    (h : isDotted first cs = true) : ' ' ∉ cs := by
  induction cs generalizing first with
  | nil => exact List.not_mem_nil
  | cons c ds ih =>
    rw [isDotted] at h
    by_cases hdot : c = '.'
    · rw [if_pos hdot, Bool.and_eq_true_iff] at h
      simp [hdot, ih h.2]
    · rw [if_neg hdot, Bool.and_eq_true_iff] at h
      have hc : ' ' ≠ c := by
        rintro rfl
        -- a blank may neither begin an identifier nor stand in one
        revert h
        cases first <;> simp [isNameStart, isNamePart]
      simp [hc, ih h.2]

/-! ## Parse trees -/

/-- The ranks of the grammar, from the tightest on. -/
inductive Rank where
  | atom
  | conjunction
  | expression
deriving DecidableEq

/-- The parse trees of a rank. -/
inductive Tree : Rank → Type where
  /-- `1=1` -/
  | always : Tree .atom
  /-- `1=0` -/
  | never : Tree .atom
  /-- An expression in parentheses. -/
  | group (e : Tree .expression) : Tree .atom
  /-- A column, the sign of an operator and a placeholder. -/
  | compare (column : ColumnName) (op : Comparison) : Tree .atom
  | last (a : Tree .atom) : Tree .conjunction
  | and (a : Tree .atom) (b : Tree .conjunction) : Tree .conjunction
  | only (a : Tree .conjunction) : Tree .expression
  | or (a : Tree .conjunction) (b : Tree .expression) : Tree .expression

namespace Tree

/-- The text that a tree parses. -/
def text : {r : Rank} → Tree r → List Char
  | _, always => "1=1".toList
  | _, never => "1=0".toList
  | _, group e => '(' :: (e.text ++ [')'])
  | _, compare column op => column.name.toList ++ ' ' :: (op.sign.toList ++ ' ' :: ['?'])
  | _, last a => a.text
  | _, and a b => a.text ++ (" AND ".toList ++ b.text)
  | _, only a => a.text
  | _, or a b => a.text ++ (" OR ".toList ++ b.text)

/-- What a tree comes to, and the parameters that are left: every placeholder takes the first of
the parameters that are left to it. `holds` says what the comparison of a column of the row with a
value comes to. Without a parameter for each placeholder there is no answer. -/
def eval (holds : String → Comparison → Value → Truth) :
    {r : Rank} → Tree r → List Value → Option (Truth × List Value)
  | _, always, vs => some (.holds, vs)
  | _, never, vs => some (.fails, vs)
  | _, group e, vs => e.eval holds vs
  | _, compare _ _, [] => none
  | _, compare column op, v :: vs => some (holds column.name op v, vs)
  | _, last a, vs => a.eval holds vs
  | _, and a b, vs => do
    let (x, vs) ← a.eval holds vs
    let (y, vs) ← b.eval holds vs
    return (x.and y, vs)
  | _, only a, vs => a.eval holds vs
  | _, or a b, vs => do
    let (x, vs) ← a.eval holds vs
    let (y, vs) ← b.eval holds vs
    return (x.or y, vs)

/-! ## A text has one parse tree -/

/-- The text cannot carry on a tree of this rank. -/
def Stops : Rank → List Char → Prop
  | .atom, _ => True
  | .conjunction, cs => ¬ " AND ".toList <+: cs
  | .expression, cs => ¬ " AND ".toList <+: cs ∧ ¬ " OR ".toList <+: cs

theorem sign_injective {a b : Comparison} (h : a.sign = b.sign) : a = b := by
  cases a <;> cases b <;> first | rfl | simp [Comparison.sign] at h

theorem blank_not_mem_sign (op : Comparison) : ' ' ∉ op.sign.toList := by
  cases op <;> simp [Comparison.sign]

/-- Words that hold no blank, each before a blank, are the same if the texts are. -/
theorem append_blank_inj {as bs xs ys : List Char} (ha : ' ' ∉ as) (hb : ' ' ∉ bs)
    (h : as ++ ' ' :: xs = bs ++ ' ' :: ys) : as = bs ∧ xs = ys := by
  induction as generalizing bs with
  | nil =>
    cases bs with
    | nil => exact ⟨rfl, (List.cons.inj h).2⟩
    | cons b bs => exact absurd (List.mem_cons.mpr (.inl (List.cons.inj h).1)) hb
  | cons a as ih =>
    cases bs with
    | nil => exact absurd (List.mem_cons.mpr (.inl (List.cons.inj h).1.symm)) ha
    | cons b bs =>
      obtain ⟨hab, hrest⟩ := List.cons.inj h
      obtain ⟨hwords, htail⟩ := ih (fun hm => ha (by simp [hm])) (fun hm => hb (by simp [hm])) hrest
      exact ⟨by rw [hab, hwords], htail⟩

/-- The text of a comparison begins like an identifier, as no other atom does. -/
theorem text_compare_ne {column : ColumnName} {op : Comparison} {c : Char} {cs xs : List Char}
    (hc : isNameStart c = false) : (compare column op).text ++ xs ≠ c :: cs := by
  obtain ⟨d, ds, hd, hstart⟩ := exists_cons_of_isDotted column.isPlain.1
  rw [text, hd]
  intro h
  rw [(List.cons.inj h).1, hc] at hstart
  cases hstart

theorem text_compare_append_inj {column column' : ColumnName} {op op' : Comparison}
    {xs ys : List Char}
    (h : (compare column op).text ++ xs = (compare column' op').text ++ ys) :
    compare column op = compare column' op' ∧ xs = ys := by
  simp only [text, List.append_assoc, List.cons_append, List.nil_append] at h
  obtain ⟨hname, hafter⟩ := append_blank_inj (blank_not_mem_of_isDotted column.isPlain.1)
    (blank_not_mem_of_isDotted column'.isPlain.1) h
  obtain ⟨hsign, hrest⟩ := append_blank_inj (blank_not_mem_sign op) (blank_not_mem_sign op') hafter
  have hop : op = op' := sign_injective (String.toList_inj.mp hsign)
  have hcolumn : column = column' := ColumnName.ext (String.toList_inj.mp hname)
  exact ⟨by rw [hop, hcolumn], (List.cons.inj hrest).2⟩

/-- **Unique readability**: if two trees of a rank begin a text, and neither could be carried on
where it ends, they are the same tree and end at the same place. By induction on the first tree;
atoms are told apart by their first character, and what follows an atom decides how a
conjunction goes on, what follows a conjunction how an expression does. -/
theorem text_append_inj {r : Rank} (t : Tree r) :
    ∀ (u : Tree r) {xs ys : List Char}, Stops r xs → Stops r ys →
      t.text ++ xs = u.text ++ ys → t = u ∧ xs = ys := by
  induction t with
  | always =>
    intro u xs ys _ _ h
    cases u with
    | always => exact ⟨rfl, List.append_cancel_left h⟩
    | never => simp [text] at h
    | group e => simp [text] at h
    | compare column op => exact absurd h.symm (text_compare_ne rfl)
  | never =>
    intro u xs ys _ _ h
    cases u with
    | always => simp [text] at h
    | never => exact ⟨rfl, List.append_cancel_left h⟩
    | group e => simp [text] at h
    | compare column op => exact absurd h.symm (text_compare_ne rfl)
  | group e ih =>
    intro u xs ys _ _ h
    cases u with
    | always => simp [text] at h
    | never => simp [text] at h
    | group e' =>
      simp only [text, List.cons_append, List.append_assoc, List.cons.injEq, true_and,
        List.nil_append] at h
      -- the parenthesis that closes a group stops what is in it
      have hstop : ∀ zs : List Char, Stops .expression (')' :: zs) := fun zs => by
        simp [Stops, List.cons_prefix_cons]
      obtain ⟨rfl, hrest⟩ := ih e' (hstop xs) (hstop ys) h
      exact ⟨rfl, (List.cons.inj hrest).2⟩
    | compare column op => exact absurd h.symm (text_compare_ne rfl)
  | compare column op =>
    intro u xs ys _ _ h
    cases u with
    | always => exact absurd h (text_compare_ne rfl)
    | never => exact absurd h (text_compare_ne rfl)
    | group e => exact absurd h (text_compare_ne rfl)
    | compare column' op' => exact text_compare_append_inj h
  | last a ih =>
    intro u xs ys hx hy h
    cases u with
    | last a' =>
      obtain ⟨rfl, hrest⟩ := ih a' trivial trivial h
      exact ⟨rfl, hrest⟩
    | and a' b' =>
      rw [text, text, List.append_assoc, List.append_assoc] at h
      obtain ⟨-, hrest⟩ := ih a' trivial trivial h
      -- the second tree goes on where the first one has to stop
      exact absurd ⟨_, hrest.symm⟩ hx
  | and a b iha ihb =>
    intro u xs ys hx hy h
    cases u with
    | last a' =>
      rw [text, text, List.append_assoc, List.append_assoc] at h
      obtain ⟨-, hrest⟩ := iha a' trivial trivial h
      -- the first tree goes on where the second one has to stop
      exact absurd ⟨_, hrest⟩ hy
    | and a' b' =>
      rw [text, text, List.append_assoc, List.append_assoc, List.append_assoc,
        List.append_assoc] at h
      obtain ⟨rfl, hafter⟩ := iha a' trivial trivial h
      obtain ⟨hb, hrest⟩ := ihb b' hx hy (List.append_cancel_left hafter)
      exact ⟨by rw [hb], hrest⟩
  | only a ih =>
    intro u xs ys hx hy h
    cases u with
    | only a' =>
      obtain ⟨rfl, hrest⟩ := ih a' hx.1 hy.1 h
      exact ⟨rfl, hrest⟩
    | or a' b' =>
      rw [text, text, List.append_assoc, List.append_assoc] at h
      obtain ⟨-, hrest⟩ := ih a' hx.1 (by simp [Stops, List.cons_prefix_cons]) h
      exact absurd ⟨_, hrest.symm⟩ hx.2
  | or a b iha ihb =>
    intro u xs ys hx hy h
    -- ` OR ` stops a conjunction, so the conjunctions before it are the same
    have hor : ∀ zs : List Char, Stops .conjunction (" OR ".toList ++ zs) := by
      intro zs
      simp [Stops, List.cons_prefix_cons]
    cases u with
    | only a' =>
      rw [text, text, List.append_assoc, List.append_assoc] at h
      obtain ⟨-, hrest⟩ := iha a' (hor _) hy.1 h
      exact absurd ⟨_, hrest⟩ hy.2
    | or a' b' =>
      rw [text, text, List.append_assoc, List.append_assoc, List.append_assoc,
        List.append_assoc] at h
      obtain ⟨rfl, hafter⟩ := iha a' (hor _) (hor _) h
      obtain ⟨hb, hrest⟩ := ihb b' hx hy (List.append_cancel_left hafter)
      exact ⟨by rw [hb], hrest⟩

/-- A text parses as an expression in at most one way. -/
theorem text_injective {t u : Tree .expression} (h : t.text = u.text) : t = u := by
  have hstop : Stops .expression [] := by simp [Stops]
  exact (text_append_inj t u hstop hstop (by rw [h])).1

end Tree

end Clause

end Tabular
