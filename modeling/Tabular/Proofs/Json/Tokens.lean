import Mathlib.Algebra.Field.Rat
import Tabular.Json.Reader

/-!
# Tokens of JSON

The numbers and strings of the format, each as what may stand in front of the rest of a text.

- `Json.Number`: a number and the exact value that it has; `Json.Integral` if it is written as an
  integer.
- `Json.Chars`: a string after its opening quote and the characters that it has.
- `Json.Number.unique`, `Json.Chars.unique`: **a text begins with one number and one string at
  most**, unless what comes next could go on with the number.
-/

namespace Tabular

namespace Json

/-! ## Numbers -/

/-- One digit or more in front of the rest. -/
structure Digits (cs ds rest : List Char) : Prop where
  eq_append : cs = ds ++ rest
  ne_nil : ds ≠ []
  isDigit : ∀ c ∈ ds, c.isDigit = true

/-- The digits before the point; a leading zero stands alone. -/
inductive Whole : List Char → Nat → List Char → Prop where
  | zero (rest : List Char) : Whole ('0' :: rest) 0 rest
  | digits {cs ds rest : List Char} : Digits cs ds rest → ds.head? ≠ some '0' →
    Whole cs (Text.value ds) rest

/-- The point and the digits after it, if they are there. -/
inductive Fraction : List Char → ℚ → List Char → Prop where
  | absent (rest : List Char) : Fraction rest 0 rest
  | present {cs ds rest : List Char} : Digits cs ds rest →
    Fraction ('.' :: cs) (Text.value ds / 10 ^ ds.length) rest

/-- Digits after a sign or none. -/
inductive Signed : List Char → Int → List Char → Prop where
  | plain {cs ds rest : List Char} : Digits cs ds rest → Signed cs (Text.value ds) rest
  | plus {cs ds rest : List Char} : Digits cs ds rest → Signed ('+' :: cs) (Text.value ds) rest
  | minus {cs ds rest : List Char} : Digits cs ds rest → Signed ('-' :: cs) (-Text.value ds) rest

/-- The exponent, if it is there. -/
inductive Exponent : List Char → Int → List Char → Prop where
  | absent (rest : List Char) : Exponent rest 0 rest
  | present {e : Char} {cs rest : List Char} {n : Int} : e = 'e' ∨ e = 'E' → Signed cs n rest →
    Exponent (e :: cs) n rest

/-- A number without a sign. -/
inductive Magnitude : List Char → ℚ → List Char → Prop where
  | mk {cs afterWhole afterFraction rest : List Char} {n : Nat} {f : ℚ} {e : Int} :
    Whole cs n afterWhole → Fraction afterWhole f afterFraction → Exponent afterFraction e rest →
    Magnitude cs ((n + f) * 10 ^ e) rest

/-- A number. -/
inductive Number : List Char → ℚ → List Char → Prop where
  | plain {cs rest : List Char} {q : ℚ} : Magnitude cs q rest → Number cs q rest
  | minus {cs rest : List Char} {q : ℚ} : Magnitude cs q rest → Number ('-' :: cs) (-q) rest

/-- A number written as an integer, zero without a sign. -/
inductive Integral : List Char → ℚ → List Char → Prop where
  | plain {cs rest : List Char} {n : Nat} : Whole cs n rest → Integral cs n rest
  | minus {cs rest : List Char} {n : Nat} : Whole cs n rest → n ≠ 0 →
    Integral ('-' :: cs) (-n) rest

section

variable {cs ds ds' rest rest' : List Char}

/-- No digit comes next. -/
def NoDigitNext (rest : List Char) : Prop := ∀ c, rest.head? = some c → c.isDigit = false

/-- Nothing comes next that a number could go on with. -/
def NumberEnds (rest : List Char) : Prop :=
  ∀ c, rest.head? = some c → c.isDigit = false ∧ c ≠ '.' ∧ c ≠ 'e' ∧ c ≠ 'E'

theorem NumberEnds.noDigitNext (h : NumberEnds rest) : NoDigitNext rest := fun c hc => (h c hc).1

theorem Digits.isDigit_head {c : Char} (h : Digits (c :: cs) ds rest) : c.isDigit = true := by
  cases ds with
  | nil => exact absurd rfl h.ne_nil
  | cons d ds =>
    obtain ⟨rfl, -⟩ := List.cons.inj h.eq_append
    exact h.isDigit c List.mem_cons_self

theorem Digits.not_nil : ¬ Digits [] ds rest :=
  fun h => h.ne_nil (List.append_eq_nil_iff.mp h.eq_append.symm).1

theorem Digits.length_le (h : Digits cs ds rest) :
    rest.length ≤ cs.length := by
  rw [h.eq_append, List.length_append]
  omega

/-- A run of digits that no digit follows is the whole run. -/
theorem Digits.unique (h : Digits cs ds rest) (h' : Digits cs ds' rest') (hrest : NoDigitNext rest)
    (hrest' : NoDigitNext rest') : ds = ds' ∧ rest = rest' := by
  have hds := Text.takeWhile_isDigit_append h.isDigit hrest
  have hds' := Text.takeWhile_isDigit_append h'.isDigit hrest'
  rw [← h.eq_append] at hds
  rw [← h'.eq_append] at hds'
  obtain rfl := hds.symm.trans hds'
  exact ⟨rfl, List.append_cancel_left (h.eq_append.symm.trans h'.eq_append)⟩

theorem Whole.isDigit_head {c : Char} {n : Nat} (h : Whole (c :: cs) n rest) :
    c.isDigit = true := by
  cases h with
  | zero => rfl
  | digits hds => exact hds.isDigit_head

theorem Whole.length_le {n : Nat} (h : Whole cs n rest) :
    rest.length ≤ cs.length := by
  cases h with
  | zero => simp
  | digits hds => exact hds.length_le

theorem Whole.unique {n n' : Nat} (h : Whole cs n rest) (h' : Whole cs n' rest')
    (hrest : NoDigitNext rest) (hrest' : NoDigitNext rest') : n = n' ∧ rest = rest' := by
  have hzero : ∀ {cs ds rest}, Digits ('0' :: cs) ds rest → ds.head? = some '0' := by
    intro cs ds rest hds
    cases ds with
    | nil => exact absurd rfl hds.ne_nil
    | cons d ds => exact congrArg some (List.cons.inj hds.eq_append).1.symm
  cases h with
  | zero =>
    cases h' with
    | zero => exact ⟨rfl, rfl⟩
    | digits hds' hhead => exact absurd (hzero hds') hhead
  | digits hds hhead =>
    cases h' with
    | zero => exact absurd (hzero hds) hhead
    | digits hds' =>
      obtain ⟨rfl, rfl⟩ := hds.unique hds' hrest hrest'
      exact ⟨rfl, rfl⟩

theorem Fraction.unique {q q' : ℚ} (h : Fraction cs q rest) (h' : Fraction cs q' rest')
    (hrest : NoDigitNext rest ∧ rest.head? ≠ some '.')
    (hrest' : NoDigitNext rest' ∧ rest'.head? ≠ some '.') : q = q' ∧ rest = rest' := by
  cases h with
  | absent =>
    cases h' with
    | absent => exact ⟨rfl, rfl⟩
    | present => exact absurd rfl hrest.2
  | present hds =>
    cases h' with
    | absent => exact absurd rfl hrest'.2
    | present hds' =>
      obtain ⟨rfl, rfl⟩ := hds.unique hds' hrest.1 hrest'.1
      exact ⟨rfl, rfl⟩

theorem Signed.unique {n n' : Int} (h : Signed cs n rest) (h' : Signed cs n' rest')
    (hrest : NoDigitNext rest) (hrest' : NoDigitNext rest') : n = n' ∧ rest = rest' := by
  have hplus : ∀ {cs ds rest}, ¬ Digits ('+' :: cs) ds rest :=
    fun hds => absurd hds.isDigit_head (by decide)
  have hminus : ∀ {cs ds rest}, ¬ Digits ('-' :: cs) ds rest :=
    fun hds => absurd hds.isDigit_head (by decide)
  have hsame : ∀ {cs ds ds'}, Digits cs ds rest → Digits cs ds' rest' → ds = ds' ∧ rest = rest' :=
    fun hds hds' => hds.unique hds' hrest hrest'
  cases h with
  | plain hds =>
    cases h' with
    | plain hds' =>
      obtain ⟨rfl, rfl⟩ := hsame hds hds'
      exact ⟨rfl, rfl⟩
    | plus => exact absurd hds hplus
    | minus => exact absurd hds hminus
  | plus hds =>
    cases h' with
    | plain hds' => exact absurd hds' hplus
    | plus hds' =>
      obtain ⟨rfl, rfl⟩ := hsame hds hds'
      exact ⟨rfl, rfl⟩
  | minus hds =>
    cases h' with
    | plain hds' => exact absurd hds' hminus
    | minus hds' =>
      obtain ⟨rfl, rfl⟩ := hsame hds hds'
      exact ⟨rfl, rfl⟩

theorem Exponent.unique {n n' : Int} (h : Exponent cs n rest) (h' : Exponent cs n' rest')
    (hrest : NumberEnds rest) (hrest' : NumberEnds rest') : n = n' ∧ rest = rest' := by
  have hmark : ∀ {e : Char} {cs}, e = 'e' ∨ e = 'E' → ¬ NumberEnds (e :: cs) :=
    fun he hends => he.elim (hends _ rfl).2.2.1 (hends _ rfl).2.2.2
  cases h with
  | absent =>
    cases h' with
    | absent => exact ⟨rfl, rfl⟩
    | present he => exact absurd hrest (hmark he)
  | present he hn =>
    cases h' with
    | absent => exact absurd hrest' (hmark he)
    | present _ hn' => exact hn.unique hn' hrest.noDigitNext hrest'.noDigitNext

/-- An exponent begins neither with a digit nor with a point. -/
theorem Exponent.head {n : Int} (h : Exponent cs n rest) (hrest : NumberEnds rest) :
    NoDigitNext cs ∧ cs.head? ≠ some '.' := by
  cases h with
  | absent => exact ⟨hrest.noDigitNext, fun hc => (hrest _ hc).2.1 rfl⟩
  | present he =>
    constructor
    · rintro c ⟨⟩
      rcases he with rfl | rfl <;> rfl
    · rintro ⟨⟩
      simp at he

theorem Fraction.head {q : ℚ} (h : Fraction cs q rest) (hrest : NoDigitNext rest) :
    NoDigitNext cs := by
  cases h with
  | absent => exact hrest
  | present =>
    rintro c ⟨⟩
    rfl

theorem Magnitude.unique {q q' : ℚ} (h : Magnitude cs q rest) (h' : Magnitude cs q' rest')
    (hrest : NumberEnds rest) (hrest' : NumberEnds rest') : q = q' ∧ rest = rest' := by
  obtain ⟨hwhole, hfraction, hexponent⟩ := h
  obtain ⟨hwhole', hfraction', hexponent'⟩ := h'
  have hafter := hexponent.head hrest
  have hafter' := hexponent'.head hrest'
  obtain ⟨rfl, rfl⟩ := hwhole.unique hwhole' (hfraction.head hafter.1) (hfraction'.head hafter'.1)
  obtain ⟨rfl, rfl⟩ := hfraction.unique hfraction' hafter hafter'
  obtain ⟨rfl, rfl⟩ := hexponent.unique hexponent' hrest hrest'
  exact ⟨rfl, rfl⟩

theorem Magnitude.isDigit_head {c : Char} {q : ℚ} (h : Magnitude (c :: cs) q rest) :
    c.isDigit = true := by
  obtain ⟨hwhole, -, -⟩ := h
  exact hwhole.isDigit_head

theorem Number.unique {q q' : ℚ} (h : Number cs q rest) (h' : Number cs q' rest')
    (hrest : NumberEnds rest) (hrest' : NumberEnds rest') : q = q' ∧ rest = rest' := by
  cases h with
  | plain hq =>
    cases h' with
    | plain hq' => exact hq.unique hq' hrest hrest'
    | minus => exact absurd hq.isDigit_head (by decide)
  | minus hq =>
    cases h' with
    | plain hq' => exact absurd hq'.isDigit_head (by decide)
    | minus hq' =>
      obtain ⟨rfl, rfl⟩ := hq.unique hq' hrest hrest'
      exact ⟨rfl, rfl⟩

theorem Whole.magnitude {n : Nat} (h : Whole cs n rest) : Magnitude cs n rest := by
  have hmagnitude := Magnitude.mk h (.absent rest) (.absent rest)
  rw [add_zero, zpow_zero, mul_one] at hmagnitude
  exact hmagnitude

theorem Integral.number {q : ℚ} (h : Integral cs q rest) : Number cs q rest := by
  cases h with
  | plain hwhole => exact .plain hwhole.magnitude
  | minus hwhole => exact .minus hwhole.magnitude

theorem Integral.length_le {q : ℚ} (h : Integral cs q rest) :
    rest.length ≤ cs.length := by
  cases h with
  | plain hwhole => exact hwhole.length_le
  | minus hwhole => exact Nat.le_succ_of_le hwhole.length_le

theorem Number.head {c : Char} {q : ℚ} (h : Number (c :: cs) q rest) :
    c = '-' ∨ c.isDigit = true := by
  cases h with
  | plain hq => exact .inr hq.isDigit_head
  | minus => exact .inl rfl

theorem Number.ne_nil {q : ℚ} (h : Number cs q rest) : cs ≠ [] := by
  rintro rfl
  cases h with
  | plain hq =>
    obtain ⟨hwhole, -, -⟩ := hq
    cases hwhole with
    | digits hds => exact Digits.not_nil hds

end

/-! ## Strings -/

/-- The characters of a string after its opening quote, up to the closing one. -/
inductive Chars : List Char → List Char → List Char → Prop where
  | close (rest : List Char) : Chars ('"' :: rest) [] rest
  | plain {c : Char} {cs s rest : List Char} : c ≠ '"' → c ≠ '\\' → 32 ≤ c.toNat →
    Chars cs s rest → Chars (c :: cs) (c :: s) rest
  | escape {e c : Char} {cs s rest : List Char} : unescape? e = some c →
    Chars cs s rest → Chars ('\\' :: e :: cs) (c :: s) rest
  | code {a b c d : Char} {n : Nat} {cs s rest : List Char} : hexValue4? a b c d = some n →
    isHighHalf n = false → isLowHalf n = false → Chars cs s rest →
    Chars ('\\' :: 'u' :: a :: b :: c :: d :: cs) (Char.ofNat n :: s) rest
  | pair {a b c d a' b' c' d' : Char} {high low : Nat} {cs s rest : List Char} :
    hexValue4? a b c d = some high → isHighHalf high = true →
    hexValue4? a' b' c' d' = some low → isLowHalf low = true → Chars cs s rest →
    Chars ('\\' :: 'u' :: a :: b :: c :: d :: '\\' :: 'u' :: a' :: b' :: c' :: d' :: cs)
      (joinHalves high low :: s) rest

theorem Chars.length_le {cs s rest : List Char} (h : Chars cs s rest) :
    rest.length ≤ cs.length := by
  induction h with
  | close => simp
  | _ => simp only [List.length_cons]; omega

/-- A string ends at its closing quote. -/
theorem Chars.unique {cs t t' rest rest' : List Char} (h : Chars cs t rest)
    (h' : Chars cs t' rest') : t = t' ∧ rest = rest' := by
  induction h generalizing t' with
  | close =>
    cases h' with
    | close => exact ⟨rfl, rfl⟩
    | plain hquote => exact absurd rfl hquote
  | plain hquote hslash hcontrol _ ih =>
    cases h' with
    | close => exact absurd rfl hquote
    | plain _ _ _ h' =>
      obtain ⟨rfl, rfl⟩ := ih h'
      exact ⟨rfl, rfl⟩
    | escape => exact absurd rfl hslash
    | code => exact absurd rfl hslash
    | pair => exact absurd rfl hslash
  | escape he _ ih =>
    cases h' with
    | plain _ hslash => exact absurd rfl hslash
    | escape he' h' =>
      obtain ⟨rfl, rfl⟩ := ih h'
      rw [he] at he'
      cases he'
      exact ⟨rfl, rfl⟩
    | code => cases he
    | pair => cases he
  | code hn hhigh hlow _ ih =>
    cases h' with
    | plain _ hslash => exact absurd rfl hslash
    | escape he' => cases he'
    | code hn' _ _ h' =>
      obtain ⟨rfl, rfl⟩ := ih h'
      rw [hn] at hn'
      cases hn'
      exact ⟨rfl, rfl⟩
    | pair hn' hhigh' =>
      rw [hn] at hn'
      cases hn'
      rw [hhigh] at hhigh'
      cases hhigh'
  | pair hhigh hishigh hlow _ _ ih =>
    cases h' with
    | plain _ hslash => exact absurd rfl hslash
    | escape he' => cases he'
    | code hn' hnothigh =>
      rw [hhigh] at hn'
      cases hn'
      rw [hishigh] at hnothigh
      cases hnothigh
    | pair hhigh' _ hlow' _ h' =>
      obtain ⟨rfl, rfl⟩ := ih h'
      rw [hhigh] at hhigh'
      rw [hlow] at hlow'
      cases hhigh'
      cases hlow'
      exact ⟨rfl, rfl⟩

end Json

end Tabular
