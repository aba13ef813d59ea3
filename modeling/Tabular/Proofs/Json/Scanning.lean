import Mathlib.Data.List.TakeDrop
import Tabular.Proofs.Json.Grammar

/-!
# Reading tokens

The reader at the tokens of the grammar.

- `Json.Chars.readChars_eq`: it reads every string.
- `Json.Whole.readNumber_plain`, `Json.Whole.readNumber_minus`: it reads integers of 64 bits as they
  are.
- `Json.Blanks.skipBlank_eq`: it passes over blanks.
-/

namespace Tabular

namespace Json

/-! ## Strings -/

theorem readChars_escape {e c : Char} (he : unescape? e = some c) (rest : List Char) :
    readChars none ('\\' :: e :: rest) = withChar c (readChars none rest) := by
  unfold unescape? at he
  split at he <;> cases he <;> simp [readChars, unescape?]

/-- Every string is read as its characters. -/
theorem Chars.readChars_eq {cs s rest : List Char} (h : Chars cs s rest) :
    readChars none cs = .ok (s, rest) := by
  induction h with
  | close rest => simp [readChars]
  | @plain c cs s rest hquote hslash hplain _ ih =>
    have hcontrol : ¬ c.toNat < 32 := by omega
    simp [readChars, hslash, hcontrol, ih, withChar]
  | escape he _ ih =>
    rw [readChars_escape he, ih]
    rfl
  | code hn hhigh hlow _ ih => simp [readChars, hn, hhigh, hlow, ih, withChar]
  | @pair _ _ _ _ _ _ _ _ high _ _ _ _ hhigh hishigh hlow hislow _ ih =>
    have hnotlow : isLowHalf high = false := by grind [isHighHalf, isLowHalf]
    simp [readChars, hhigh, hishigh, hnotlow, hlow, hislow, ih, withChar]

/-! ## Numbers -/

section

variable {cs ds rest : List Char}

theorem Digits.digits_eq (h : Digits cs ds rest) (hrest : NoDigitNext rest) :
    digits cs = (ds, rest) := by
  rw [digits, List.span_eq_takeWhile_dropWhile, h.eq_append,
    Text.takeWhile_isDigit_append h.isDigit hrest, Text.dropWhile_isDigit_append h.isDigit hrest]

/-- The digits of a whole number begin with a zero only if it stands alone. -/
theorem Whole.exists_digits {n : Nat} (h : Whole cs n rest) :
    ∃ ds, Digits cs ds rest ∧ Text.value ds = n ∧ (ds.head? = some '0' → ds = ['0']) := by
  cases h with
  | zero => exact ⟨['0'], ⟨rfl, by simp, by simp⟩, rfl, fun _ => rfl⟩
  | digits hds hhead => exact ⟨_, hds, rfl, fun h => absurd h hhead⟩

theorem readFraction_none (h : rest.head? ≠ some '.') : readFraction rest = .ok (none, rest) := by
  cases rest with
  | nil => rfl
  | cons c rest =>
    unfold readFraction
    split
    next heq => exact absurd (congrArg List.head? heq) h
    next => rfl

theorem readExponent_none (h : NumberEnds rest) : readExponent rest = .ok (none, rest) := by
  cases rest with
  | nil => rfl
  | cons c rest =>
    obtain ⟨-, -, he, hE⟩ := h c rfl
    simp [readExponent, he, hE]

theorem Whole.readNumeral_eq {n : Nat} (h : Whole cs n rest) (hrest : NumberEnds rest)
    (negative : Bool) :
    ∃ ds, Text.value ds = n ∧ readNumeral negative cs = .ok (⟨negative, ds, none, none⟩, rest) := by
  obtain ⟨ds, hds, hvalue, hzero⟩ := h.exists_digits
  have hpoint : rest.head? ≠ some '.' := fun hc => (hrest _ hc).2.1 rfl
  refine ⟨ds, hvalue, ?_⟩
  rw [readNumeral, hds.digits_eq hrest.noDigitNext]
  split
  next heq => exact absurd (Prod.mk.inj heq).1 hds.ne_nil
  next heq =>
    obtain ⟨rfl, -⟩ := Prod.mk.inj heq
    exact absurd (hzero rfl) (by simp)
  next heq =>
    obtain ⟨rfl, rfl⟩ := Prod.mk.inj heq
    rw [readFraction_none hpoint]
    show (readExponent rest).bind _ = _
    rw [readExponent_none hrest]
    rfl

theorem le_valueFrom (n : Nat) (ds : List Char) : n ≤ Text.valueFrom n ds := by
  induction ds generalizing n with
  | nil => exact Nat.le_refl n
  | cons d ds ih =>
    have hnext := ih (10 * n + Text.digitValue d)
    show n ≤ Text.valueFrom (10 * n + Text.digitValue d) ds
    omega

/-- Digits of a number of 64 bits are taken up whole. -/
theorem takeDigits_eq {n : Nat} {ds : List Char} (h : Text.valueFrom n ds < UInt64.size) :
    takeDigits n ds = (Text.valueFrom n ds, []) := by
  induction ds generalizing n with
  | nil => rfl
  | cons d ds ih =>
    have hnext := le_valueFrom (10 * n + Text.digitValue d) ds
    have hds : Text.valueFrom n (d :: ds) = Text.valueFrom (10 * n + Text.digitValue d) ds := rfl
    rw [hds] at h ⊢
    rw [takeDigits]
    simp only [if_pos (Nat.lt_of_le_of_lt hnext h)]
    exact ih h

theorem value?_plain {ds : List Char} (h : Text.value ds < UInt64.size) :
    Numeral.value? ⟨false, ds, none, none⟩ = some (.integer (Text.value ds)) := by
  simp only [Numeral.value?, takeDigits_eq h]
  rfl

theorem value?_minus {ds : List Char} (hpos : Text.value ds ≠ 0)
    (h : Int64.minValue.toInt ≤ -(Text.value ds : Int)) :
    Numeral.value? ⟨true, ds, none, none⟩ = some (.integer (-(Text.value ds : Int))) := by
  have hmin : Int64.minValue.toInt = -9223372036854775808 := by decide
  have hlt : Text.value ds < UInt64.size := by
    rw [hmin] at h
    show Text.value ds < 18446744073709551616
    omega
  have hfits : 0 < Text.value ds ∧ Int64.minValue.toInt ≤ -(Text.value ds : Int) :=
    ⟨Nat.pos_of_ne_zero hpos, h⟩
  simp only [Numeral.value?, takeDigits_eq hlt]
  exact if_pos hfits

theorem readNumber_eq {negative : Bool} {n : Numeral} {v : Json}
    (hnumeral : readNumeral negative cs = .ok (n, rest)) (hv : n.value? = some v) :
    readNumber negative cs = .ok (v, rest) := by
  unfold readNumber
  rw [hnumeral]
  simp only [bind, Except.bind, hv]
  rfl

/-- An integer of 64 bits is read after its sign. -/
theorem Whole.readNumber_plain {n : Nat} (h : Whole cs n rest) (hrest : NumberEnds rest)
    (hn : n < UInt64.size) : readNumber false cs = .ok (.integer n, rest) := by
  obtain ⟨ds, rfl, hnumeral⟩ := h.readNumeral_eq hrest false
  exact readNumber_eq hnumeral (value?_plain hn)

/-- A minus sign stands before a number that is not zero. -/
theorem Whole.readNumber_minus {n : Nat} (h : Whole cs n rest) (hrest : NumberEnds rest)
    (hpos : n ≠ 0) (hn : Int64.minValue.toInt ≤ -(n : Int)) :
    readNumber true cs = .ok (.integer (-(n : Int)), rest) := by
  obtain ⟨ds, rfl, hnumeral⟩ := h.readNumeral_eq hrest true
  exact readNumber_eq hnumeral (value?_minus hpos hn)

end

/-! ## Blanks -/

theorem skipBlank_cons {c : Char} (h : ¬ IsBlank c) (cs : List Char) :
    skipBlank (c :: cs) = c :: cs := by
  rw [skipBlank, List.dropWhile_cons_of_neg]
  simpa [IsBlank] using h

theorem Blanks.skipBlank_eq {cs rest : List Char} (h : Blanks IsBlank cs rest) :
    skipBlank cs = skipBlank rest := by
  induction h with
  | nil => rfl
  | @cons c cs rest hc _ ih =>
    rw [← ih, skipBlank, List.dropWhile_cons_of_pos]
    · rfl
    · simpa [IsBlank] using hc

theorem Blanks.skipBlank_cons {c : Char} {cs rest : List Char} (h : Blanks IsBlank cs (c :: rest))
    (hc : ¬ IsBlank c) : skipBlank cs = c :: rest :=
  h.skipBlank_eq.trans (Json.skipBlank_cons hc rest)

/-- Blanks before a value make no difference. -/
theorem readValue_skipBlank {cs cs' : List Char} (h : skipBlank cs = skipBlank cs')
    (fuel depth : Nat) : readValue fuel depth cs = readValue fuel depth cs' := by
  cases fuel with
  | zero => rfl
  | succ fuel => rw [readValue, readValue, h]

end Json

end Tabular
