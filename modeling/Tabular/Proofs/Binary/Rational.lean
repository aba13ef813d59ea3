import Mathlib.Algebra.Order.Field.Basic
import Mathlib.Algebra.Order.Field.Rat
import Mathlib.Tactic.NormNum
import Mathlib.Tactic.Ring
import Tabular.Binary.Double

/-!
# Real numbers as rationals

What the bits of a number stand for, and what the operations on bits come to.

- `Double.rational?`: the rational number that the bits denote, field by field.
- `Double.rational?_of_finite`: it is the number of the datum that the bits are decoded to.
- `Double.lt_iff`, `Double.le_iff`: comparing numbers compares rationals.
- `Double.fraction_beq_zero`: **a number has no fraction if and only if it is an integer.**
- `Double.toInt64_of_rational`: an integer that fits a word is kept by the conversion to it.
-/

namespace Tabular

namespace Double

/-! ## What bits denote -/

/-- The sign that the first bit stands for. -/
def sign (x : Double) : ℚ := if x.bits.toNat < 2 ^ 63 then 1 else -1

/-- The eleven bits after the sign. -/
def exponentField (x : Double) : ℕ := x.bits.toNat / 2 ^ 52 % 2 ^ 11

/-- The last fifty-two bits. -/
def fractionField (x : Double) : ℕ := x.bits.toNat % 2 ^ 52

/-- The rational number that bits denote. The highest exponent is that of infinities and of what is
not a number; the lowest one leaves the fraction as it is, any other puts a one in front of it. -/
def rational? (x : Double) : Option ℚ :=
  if x.exponentField = 2047 then none
  else if x.exponentField = 0 then some (x.sign * (x.fractionField * 2 ^ (-1074 : ℤ)))
  else some (x.sign * ((2 ^ 52 + x.fractionField) * 2 ^ ((x.exponentField : ℤ) - 1075)))

/-- The rational number of a finite datum. -/
def scaled (negative : Bool) (significand : ℕ) (exponent : ℤ) : ℚ :=
  signed negative significand * 2 ^ exponent

theorem datum_eq (x : Double) :
    x.datum =
      if x.exponentField = 2047 then
        if x.fractionField = 0 then .infinite (x.bits.toNat / 2 ^ 63 % 2 == 1)
        else .nan (x.bits.toNat / 2 ^ 63 % 2 == 1) x.fractionField
      else if x.exponentField = 0 then
        .finite (x.bits.toNat / 2 ^ 63 % 2 == 1) x.fractionField (-1074)
      else
        .finite (x.bits.toNat / 2 ^ 63 % 2 == 1) (2 ^ 52 + x.fractionField)
          (-1074 + x.exponentField - 1) := by
  unfold datum BinaryFormat.decode exponentField
  rw [Nat.shiftRight_eq_div_pow]
  rfl

theorem cast_signed (negative : Bool) (n : ℕ) :
    (signed negative n : ℚ) = (if negative then -1 else 1) * n := by
  cases negative with
  | false => simp [signed]
  | true => simp [signed]

theorem scaled_eq (x : Double) (n : ℕ) (e : ℤ) :
    scaled (x.bits.toNat / 2 ^ 63 % 2 == 1) n e = x.sign * (n * 2 ^ e) := by
  have hbits : x.bits.toNat < 2 ^ 64 := x.bits.toNat_lt
  rw [scaled, cast_signed, mul_assoc]
  refine congrArg (· * ((n : ℚ) * 2 ^ e)) ?_
  unfold sign
  by_cases h : x.bits.toNat < 2 ^ 63
  · have hdiv : x.bits.toNat / 2 ^ 63 % 2 = 0 := by omega
    rw [hdiv, if_pos h]
    rfl
  · have hdiv : x.bits.toNat / 2 ^ 63 % 2 = 1 := by omega
    rw [hdiv, if_neg h]
    rfl

/-- The bits of a finite datum denote its number, and nothing is smaller than the lowest unit. -/
theorem rational?_of_finite {x : Double} {negative : Bool} {significand : ℕ} {exponent : ℤ}
    (h : x.datum = .finite negative significand exponent) :
    x.rational? = some (scaled negative significand exponent) ∧ -1074 ≤ exponent := by
  rw [datum_eq] at h
  unfold rational?
  by_cases htop : x.exponentField = 2047
  · rw [if_pos htop] at h
    split at h <;> cases h
  · rw [if_neg htop] at h ⊢
    by_cases hlow : x.exponentField = 0
    · rw [if_pos hlow] at h ⊢
      cases h
      exact ⟨by rw [scaled_eq], le_rfl⟩
    · rw [if_neg hlow] at h ⊢
      cases h
      refine ⟨?_, by omega⟩
      rw [scaled_eq, show -1074 + (x.exponentField : ℤ) - 1 = x.exponentField - 1075 by ring]
      push_cast
      rfl

/-- The bits of infinities and of what is not a number denote no number. -/
theorem exists_finite_of_rational {x : Double} {q : ℚ} (h : x.rational? = some q) :
    ∃ negative significand exponent, x.datum = .finite negative significand exponent := by
  rw [datum_eq]
  unfold rational? at h
  by_cases htop : x.exponentField = 2047
  · rw [if_pos htop] at h
    cases h
  · rw [if_neg htop]
    split
    · exact ⟨_, _, _, rfl⟩
    · exact ⟨_, _, _, rfl⟩

/-- What is not a number and infinities denote no number. -/
theorem rational?_eq_none {x : Double} (h : x.isNaN = true ∨ x.isInfinite = true) :
    x.rational? = none := by
  rw [Option.eq_none_iff_forall_ne_some]
  intro q hq
  obtain ⟨negative, significand, exponent, hd⟩ := exists_finite_of_rational hq
  rw [isNaN, isInfinite, hd] at h
  exact h.elim nofun nofun

/-! ## Comparing -/

/-- A significand brought to a lesser exponent stands for the same number. -/
theorem signed_shiftLeft (negative : Bool) (n : ℕ) (i j : ℤ) :
    (signed negative (n <<< (i - j).toNat) : ℚ) * 2 ^ min i j = scaled negative n i := by
  have hshift : ((n <<< (i - j).toNat : ℕ) : ℚ) * 2 ^ min i j = n * 2 ^ i := by
    rw [Nat.shiftLeft_eq, Nat.cast_mul, mul_assoc, Nat.cast_pow, Nat.cast_ofNat,
      ← zpow_natCast, ← zpow_add₀ two_ne_zero]
    congr 2
    omega
  rw [scaled, cast_signed, cast_signed, mul_assoc, mul_assoc, hshift]

theorem order?_eq {x y : Double} {p q : ℚ} (hx : x.rational? = some p) (hy : y.rational? = some q) :
    x.order? y = some (if p < q then .lt else if p = q then .eq else .gt) := by
  obtain ⟨s, a, i, hxd⟩ := exists_finite_of_rational hx
  obtain ⟨t, b, j, hyd⟩ := exists_finite_of_rational hy
  have hp : p = signed s (a <<< (i - j).toNat) * 2 ^ min i j := by
    rw [signed_shiftLeft]
    exact Option.some.inj (hx.symm.trans (rational?_of_finite hxd).1)
  have hq : q = signed t (b <<< (j - i).toNat) * 2 ^ min i j := by
    rw [min_comm, signed_shiftLeft]
    exact Option.some.inj (hy.symm.trans (rational?_of_finite hyd).1)
  have hpos : (0 : ℚ) < 2 ^ min i j := zpow_pos two_pos _
  unfold order?
  rw [hxd, hyd]
  dsimp only
  have hlt : p < q ↔ signed s (a <<< (i - j).toNat) < signed t (b <<< (j - i).toNat) := by
    rw [hp, hq, mul_lt_mul_iff_left₀ hpos, Int.cast_lt]
  have heq : p = q ↔ signed s (a <<< (i - j).toNat) = signed t (b <<< (j - i).toNat) := by
    rw [hp, hq, mul_left_inj' hpos.ne', Int.cast_inj]
  simp only [hlt, heq]
  rfl

/-- Comparing numbers compares rationals. -/
theorem lt_iff {x y : Double} {p q : ℚ} (hx : x.rational? = some p) (hy : y.rational? = some q) :
    x.lt y = true ↔ p < q := by
  rw [lt, order?_eq hx hy]
  split_ifs with h <;> simp [h]

theorem le_iff {x y : Double} {p q : ℚ} (hx : x.rational? = some p) (hy : y.rational? = some q) :
    x.le y = true ↔ p ≤ q := by
  rw [le, order?_eq hx hy]
  split_ifs with hlt heq
  · simp [hlt.le]
  · simp [heq]
  · have hgt : ¬ p ≤ q := fun h => h.lt_or_eq.elim hlt heq
    simp [hgt]

/-! ## Fractions -/

theorem div_le_roundDiv (num den : ℕ) : num / den ≤ roundDiv num den := by
  unfold roundDiv
  dsimp only
  split
  · exact Nat.le_succ _
  · exact le_rfl

/-- What is not less than the least unit is not rounded to zero. -/
theorem magnitude_pos {num den : ℕ} (hnum : num ≠ 0) (hden : 0 < den)
    (h : den ≤ num <<< 1074) : 0 < BinaryFormat.double.magnitude num den := by
  unfold BinaryFormat.magnitude
  rw [if_neg hnum]
  extract_lets guess reached top unit significand
  refine lt_min (by decide) ?_
  have hlow : BinaryFormat.double.lowest ≤ unit := le_max_left _ _
  rcases hlow.eq_or_lt with heq | hlt
  · -- at the least unit the significand counts the units
    have hsignificand : significand = roundDiv (num <<< 1074) den := by
      unfold significand
      rw [← heq, if_neg (by decide), show (-BinaryFormat.double.lowest).toNat = 1074 by decide]
    have hone : 1 ≤ num <<< 1074 / den := (Nat.one_le_div_iff hden).mpr h
    rw [hsignificand]
    exact Nat.add_pos_right _ (hone.trans (div_le_roundDiv _ _))
  · -- above it the exponent field is not empty
    have hpos : 0 < (unit - BinaryFormat.double.lowest).toNat :=
      Int.pos_iff_toNat_pos.mp (sub_pos.mpr hlt)
    rw [Nat.shiftLeft_eq]
    exact Nat.add_pos_left (Nat.mul_pos hpos (Nat.two_pow_pos _)) _

theorem magnitude_le (num den : ℕ) :
    BinaryFormat.double.magnitude num den ≤ BinaryFormat.double.infinity := by
  unfold BinaryFormat.magnitude
  split
  · exact Nat.zero_le _
  · exact Nat.min_le_left _ _

/-- Zero has no bits but its sign. -/
theorem isZero_iff (x : Double) : x.isZero = true ↔ x.bits.toNat % 2 ^ 63 = 0 := by
  have hsplit : x.bits.toNat % 2 ^ 63 = 2 ^ 52 * x.exponentField + x.fractionField := by
    unfold exponentField fractionField
    omega
  have hfraction : x.fractionField < 2 ^ 52 := Nat.mod_lt _ (by decide)
  rw [isZero, datum_eq, hsplit]
  split_ifs with htop hinfinite hlow
  · simp [htop]
  · simp [htop]
  · simp [hlow]
  · simp [hlow]

theorem beq_zero_iff (x : Double) : (x == ⟨0⟩) = true ↔ x.isZero = true := by
  have hnan : x.isZero = true → x.isNaN = false := by
    unfold isZero isNaN
    cases x.datum with
    | finite negative significand exponent => exact fun _ => rfl
    | infinite negative => exact fun _ => rfl
    | nan negative payload => nofun
  have hbits : x.bits = 0 → x.isZero = true := by
    intro h
    rw [isZero_iff, h]
    rfl
  have hzero : (⟨0⟩ : Double).isNaN = false ∧ (⟨0⟩ : Double).isZero = true := by decide
  show Double.beq x ⟨0⟩ = true ↔ _
  rw [Double.beq, hzero.1, hzero.2]
  simp only [Bool.and_eq_true, Bool.or_eq_true, beq_iff_eq, Bool.not_eq_true', Bool.not_false,
    and_true]
  constructor
  · rintro ⟨-, h | h⟩
    · exact hbits h
    · exact h
  · exact fun h => ⟨hnan h, .inr h⟩

theorem one_shiftLeft_le {n k m : ℕ} (hn : n ≠ 0) (h : k ≤ m) : 1 <<< k ≤ n <<< m := by
  rw [Nat.shiftLeft_eq, Nat.shiftLeft_eq]
  exact Nat.mul_le_mul (Nat.one_le_iff_ne_zero.mpr hn) (Nat.pow_le_pow_right two_pos h)

/-- What is left of a number that is not whole is not zero. -/
theorem isZero_ofPattern_encode {negative : Bool} {rest : ℕ} {exponent : ℤ} (hrest : rest ≠ 0)
    (hlow : -1074 ≤ exponent) (hneg : exponent < 0) :
    (ofPattern (BinaryFormat.double.encode (.finite negative rest exponent))).isZero = false := by
  have hden : 1 <<< (-exponent).toNat ≤ rest <<< 1074 := one_shiftLeft_le hrest (by omega)
  have hpos : 0 < BinaryFormat.double.magnitude rest (1 <<< (-exponent).toNat) := by
    refine magnitude_pos hrest ?_ hden
    rw [Nat.one_shiftLeft]
    exact Nat.two_pow_pos _
  have hle := magnitude_le rest (1 <<< (-exponent).toNat)
  rw [BinaryFormat.encode, if_neg (by omega), BinaryFormat.ofRatio]
  generalize BinaryFormat.double.magnitude rest (1 <<< (-exponent).toNat) = m at hpos hle
  have hm : m < 2 ^ 63 := hle.trans_lt (by decide)
  rw [Bool.eq_false_iff, Ne, isZero_iff, ofPattern, UInt64.toNat_ofNat']
  cases negative with
  | false =>
    show ¬ m % 2 ^ 64 % 2 ^ 63 = 0
    omega
  | true =>
    show ¬ (2 ^ 63 + m) % 2 ^ 64 % 2 ^ 63 = 0
    omega

/-- A number is what it has before the point and what it has after it. -/
theorem whole_add_rest (significand : ℕ) (exponent : ℤ) :
    (significand : ℚ) * 2 ^ exponent =
      whole significand exponent + rest significand exponent * 2 ^ exponent := by
  unfold whole rest
  by_cases h : 0 ≤ exponent
  · obtain ⟨k, rfl⟩ := Int.eq_ofNat_of_zero_le h
    simp [Nat.shiftLeft_eq]
  · obtain ⟨k, hk⟩ := Int.eq_ofNat_of_zero_le (show 0 ≤ -exponent by omega)
    have hdiv : (significand : ℚ) =
        (significand / 2 ^ k : ℕ) * 2 ^ k + (significand % 2 ^ k : ℕ) := by
      exact_mod_cast (Nat.div_add_mod' significand (2 ^ k)).symm
    rw [if_neg h, if_neg h, hk, Int.toNat_natCast, Nat.shiftRight_eq_div_pow, Nat.one_shiftLeft,
      show exponent = -(k : ℤ) by omega, zpow_neg, zpow_natCast]
    calc (significand : ℚ) * (2 ^ k)⁻¹
        = ((significand / 2 ^ k : ℕ) * 2 ^ k + (significand % 2 ^ k : ℕ)) * (2 ^ k)⁻¹ := by
          rw [← hdiv]
      _ = (significand / 2 ^ k : ℕ) + (significand % 2 ^ k : ℕ) * (2 ^ k)⁻¹ := by
          rw [add_mul, mul_inv_cancel_right₀ (pow_ne_zero k two_ne_zero)]

theorem rest_mul_lt (significand : ℕ) (exponent : ℤ) :
    (rest significand exponent : ℚ) * 2 ^ exponent < 1 := by
  unfold rest
  by_cases h : 0 ≤ exponent
  · simp [h]
  · obtain ⟨k, hk⟩ := Int.eq_ofNat_of_zero_le (show 0 ≤ -exponent by omega)
    have hlt : ((significand % 2 ^ k : ℕ) : ℚ) < 2 ^ k := by
      exact_mod_cast Nat.mod_lt significand (Nat.two_pow_pos k)
    rw [if_neg h, hk, Int.toNat_natCast, Nat.one_shiftLeft,
      show exponent = -(k : ℤ) by omega, zpow_neg, zpow_natCast, ← div_eq_mul_inv]
    exact (div_lt_one (pow_pos two_pos k)).mpr hlt

/-- A number is an integer if and only if nothing of it is after the point. -/
theorem scaled_eq_intCast_iff (negative : Bool) (significand : ℕ) (exponent n : ℤ) :
    scaled negative significand exponent = n ↔
      rest significand exponent = 0 ∧ signed negative (whole significand exponent) = n := by
  have hlt := rest_mul_lt significand exponent
  have hpos : 0 < rest significand exponent →
      (0 : ℚ) < rest significand exponent * 2 ^ exponent :=
    fun h => mul_pos (Nat.cast_pos.mpr h) (zpow_pos two_pos _)
  rw [scaled, cast_signed, mul_assoc, whole_add_rest]
  generalize whole significand exponent = w
  rcases Nat.eq_zero_or_pos (rest significand exponent) with hrest | hrest
  · rw [hrest, ← Int.cast_inj (α := ℚ), cast_signed]
    simp
  · -- a number with something after the point lies between two integers
    replace hpos := hpos hrest
    generalize (rest significand exponent : ℚ) * 2 ^ exponent = r at hlt hpos
    refine iff_of_false (fun h => ?_) (fun h => hrest.ne' h.1)
    have hbetween : ∀ m : ℤ, (w : ℚ) + r ≠ m := by
      intro m hm
      have hlow : ((w : ℤ) : ℚ) < m := by
        rw [← hm, Int.cast_natCast]
        exact lt_add_of_pos_right _ hpos
      have hhigh : (m : ℚ) < ((w + 1 : ℤ) : ℚ) := by
        rw [← hm]
        push_cast
        exact add_lt_add_right hlt _
      rw [Int.cast_lt] at hlow hhigh
      omega
    cases negative with
    | false => exact hbetween n (by simpa using h)
    | true => exact hbetween (-n) (by rw [Int.cast_neg, ← h]; simp)

/-! ## Conversions -/

/-- A number has no fraction if and only if it is an integer. -/
theorem fraction_beq_zero {x : Double} {q : ℚ} (hx : x.rational? = some q) :
    (x.fraction == ⟨0⟩) = true ↔ ∃ n : ℤ, q = n := by
  obtain ⟨negative, significand, exponent, hd⟩ := exists_finite_of_rational hx
  obtain ⟨hvalue, hlow⟩ := rational?_of_finite hd
  have hq : q = scaled negative significand exponent := Option.some.inj (hx.symm.trans hvalue)
  simp only [hq, scaled_eq_intCast_iff]
  rw [beq_zero_iff, fraction, hd]
  dsimp only
  by_cases hrest : rest significand exponent = 0
  · rw [if_pos hrest]
    exact iff_of_true (by decide) ⟨_, hrest, rfl⟩
  · have hneg : exponent < 0 := by
      by_contra h
      exact hrest (if_pos (not_lt.mp h))
    rw [if_neg hrest, isZero_ofPattern_encode hrest hlow hneg]
    exact iff_of_false (by decide) fun ⟨_, h, _⟩ => hrest h

/-- What is no number has no fraction that is zero. -/
theorem fraction_of_rational_eq_none {x : Double} (hx : x.rational? = none) :
    (x.fraction == ⟨0⟩) = false := by
  have hd : ∀ negative significand exponent, x.datum ≠ .finite negative significand exponent := by
    intro negative significand exponent hd
    rw [(rational?_of_finite hd).1] at hx
    cases hx
  unfold fraction
  split
  · exact absurd ‹_› (hd _ _ _)
  · decide

/-- An integer that fits a word is kept by the conversion to it. -/
theorem toInt64_of_rational {x : Double} {n : ℤ} (hx : x.rational? = some (n : ℚ))
    (hlow : -2 ^ 63 ≤ n) (hhigh : n < 2 ^ 63) : x.toInt64 = Int64.ofInt n := by
  obtain ⟨negative, significand, exponent, hd⟩ := exists_finite_of_rational hx
  have hvalue := (rational?_of_finite hd).1
  have hn := (scaled_eq_intCast_iff _ _ _ n).mp (Option.some.inj (hvalue.symm.trans hx))
  have hmin : ¬ n < Int64.minValue.toInt := not_lt.mpr hlow
  have hmax : ¬ Int64.maxValue.toInt < n := not_lt.mpr (Int.le_sub_one_of_lt hhigh)
  rw [toInt64, hd]
  dsimp only
  rw [hn.2, if_neg hmin, if_neg hmax]

end Double

end Tabular
