import Tabular.Proofs.Binary.Rational
import Tabular.Proofs.Postgres.ReadBack

/-!
# Columns of integers

A column of integers takes an integer of its range as it is, and refuses any other number.

- `Postgres.integerColumns`: these columns with their bytes.
- `Postgres.bindInteger_spec`: what becomes of an integer.
- `Postgres.integral?_eq_some_iff`: a real is taken for an integer of 64 bits if and only if it is
  that integer, although its bounds are compared as reals and the upper one is none.
- `Postgres.bind_integers`: **the number in the column is the one that was bound.**
-/

namespace Tabular

namespace Postgres

/-- The columns of integers with their bytes. -/
def integerColumns : List (ColumnType × ℕ) :=
  [(.builtin .int2, 2), (.builtin .int4, 4), (.builtin .int8, 8)]

/-- The integer is in the range of signed ones of so many bytes. -/
def InRange (width : ℕ) (n : ℤ) : Prop := -2 ^ (8 * width - 1) ≤ n ∧ n < 2 ^ (8 * width - 1)

/-! ## Integers -/

theorem narrowed_spec (width : ℕ) (n : ℤ) :
    narrowed (8 * width) n =
      if 2 ^ (8 * width - 1) ≤ n then .error (.narrowing .tooLarge)
      else if n < -2 ^ (8 * width - 1) then .error (.narrowing .tooSmall)
      else .ok (Text.bigEndian width n) := by
  unfold narrowed narrow
  rw [Nat.one_shiftLeft, Nat.mul_div_cancel_left width (by decide)]
  push_cast
  split_ifs <;> rfl

theorem inRange_int64 (n : Int64) : InRange 8 n.toInt := ⟨n.le_toInt, n.toInt_lt⟩

/-- What becomes of an integer in a column of integers. -/
theorem bindInteger_spec {type : ColumnType} {width : ℕ} (h : (type, width) ∈ integerColumns)
    (n : Int64) :
    bind (.integer n) type =
      if 2 ^ (8 * width - 1) ≤ n.toInt then .error (.narrowing .tooLarge)
      else if n.toInt < -2 ^ (8 * width - 1) then .error (.narrowing .tooSmall)
      else .ok (some (Text.bigEndian width n.toInt)) := by
  simp only [integerColumns, List.mem_cons, List.not_mem_nil, or_false, Prod.mk.injEq] at h
  rcases h with ⟨rfl, rfl⟩ | ⟨rfl, rfl⟩ | ⟨rfl, rfl⟩
  · show (narrowed (8 * 2) n.toInt).map some = _
    rw [narrowed_spec]
    split_ifs <;> rfl
  · show (narrowed (8 * 4) n.toInt).map some = _
    rw [narrowed_spec]
    split_ifs <;> rfl
  · -- no integer of 64 bits is out of their range
    obtain ⟨hlow, hhigh⟩ := inRange_int64 n
    rw [if_neg (not_le.mpr hhigh), if_neg (not_lt.mpr hlow)]
    rfl

/-- The bytes of an integer in their range denote it. -/
theorem word?_of_inRange {width : ℕ} (hwidth : width ≠ 0) {n : ℤ} (hn : InRange width n) :
    word? width (Text.bigEndian width n) = some n := by
  have hpow : ((Nat.pow 256 width : ℕ) : ℤ) = 2 * 2 ^ (8 * width - 1) := by
    rw [← pow_succ', Nat.sub_add_cancel (by omega), pow_mul]
    exact Nat.cast_pow 256 width
  obtain ⟨hlow, hhigh⟩ := hn
  exact word?_bigEndian (by omega) (by omega)

theorem width_spec {type : ColumnType} {width : ℕ} (h : (type, width) ∈ integerColumns) :
    width ≠ 0 ∧ width ≤ 8 := by
  simp only [integerColumns, List.mem_cons, List.not_mem_nil, or_false, Prod.mk.injEq] at h
  omega

/-- An integer is bound to a column of integers if and only if it is in its range. -/
theorem exists_bindInteger_iff {type : ColumnType} {width : ℕ}
    (h : (type, width) ∈ integerColumns) (n : Int64) :
    (∃ bytes, bind (.integer n) type = .ok (some bytes)) ↔ InRange width n.toInt := by
  rw [bindInteger_spec h]
  unfold InRange
  split_ifs with hhigh hlow
  · exact iff_of_false (by nofun) fun hn => absurd hhigh (not_le.mpr hn.2)
  · exact iff_of_false (by nofun) fun hn => absurd hlow (not_lt.mpr hn.1)
  · exact iff_of_true ⟨_, rfl⟩ ⟨not_lt.mp hlow, not_le.mp hhigh⟩

/-! ## Reals -/

theorem rational?_lower : (⟨0xC3E0000000000000⟩ : Double).rational? = some (-2 ^ 63) := by
  rw [Double.rational?, show (⟨0xC3E0000000000000⟩ : Double).exponentField = 1086 by decide,
    show (⟨0xC3E0000000000000⟩ : Double).fractionField = 0 by decide,
    show (⟨0xC3E0000000000000⟩ : Double).sign = -1 from if_neg (by decide)]
  norm_num

theorem rational?_upper : (⟨0x43E0000000000000⟩ : Double).rational? = some (2 ^ 63) := by
  rw [Double.rational?, show (⟨0x43E0000000000000⟩ : Double).exponentField = 1086 by decide,
    show (⟨0x43E0000000000000⟩ : Double).fractionField = 0 by decide,
    show (⟨0x43E0000000000000⟩ : Double).sign = 1 from if_pos (by decide)]
  norm_num

/-- The bounds as reals: the lower one is the least integer of 64 bits, the upper one the first that
is none. -/
theorem rational?_bounds :
    (Double.ofInt Int64.minValue.toInt).rational? = some (-2 ^ 63) ∧
      (Double.ofInt Int64.maxValue.toInt).rational? = some (2 ^ 63) := by
  have hlow : Double.ofInt Int64.minValue.toInt = ⟨0xC3E0000000000000⟩ := by decide +kernel
  have hhigh : Double.ofInt Int64.maxValue.toInt = ⟨0x43E0000000000000⟩ := by decide +kernel
  rw [hlow, hhigh]
  exact ⟨rational?_lower, rational?_upper⟩

/-- A real is taken for an integer of 64 bits if and only if it is that integer. -/
theorem integral?_eq_some_iff {x : Double} {n : Int64} :
    integral? x = some n ↔ x.rational? = some (n.toInt : ℚ) := by
  unfold integral?
  cases hx : x.rational? with
  | none =>
    rw [Double.fraction_of_rational_eq_none hx]
    exact iff_of_false (by nofun) (by nofun)
  | some q =>
    have hcond : (x.fraction == ⟨0⟩ && Double.le (Double.ofInt Int64.minValue.toInt) x &&
        Double.lt x (Double.ofInt Int64.maxValue.toInt)) = true ↔
        ((∃ m : ℤ, q = m) ∧ -2 ^ 63 ≤ q) ∧ q < 2 ^ 63 := by
      rw [Bool.and_eq_true, Bool.and_eq_true, Double.fraction_beq_zero hx,
        Double.le_iff rational?_bounds.1 hx, Double.lt_iff hx rational?_bounds.2]
    constructor
    · intro h
      split_ifs at h with htest
      obtain ⟨⟨⟨m, rfl⟩, hlow⟩, hhigh⟩ := hcond.mp htest
      have hlow' : -2 ^ 63 ≤ m := by exact_mod_cast hlow
      have hhigh' : m < 2 ^ 63 := by exact_mod_cast hhigh
      rw [Double.toInt64_of_rational hx hlow' hhigh'] at h
      rw [← Option.some.inj h, Int64.toInt_ofInt_of_le hlow' hhigh']
    · intro h
      obtain rfl := Option.some.inj h
      have hlow : (-2 ^ 63 : ℚ) ≤ n.toInt := by exact_mod_cast n.le_toInt
      have hhigh : (n.toInt : ℚ) < 2 ^ 63 := by exact_mod_cast n.toInt_lt
      rw [if_pos (hcond.mpr ⟨⟨⟨_, rfl⟩, hlow⟩, hhigh⟩),
        Double.toInt64_of_rational hx n.le_toInt n.toInt_lt, Int64.ofInt_toInt]

/-- A real that is an integer of 64 bits is bound as that integer, and any other is refused. -/
theorem bindReal_spec {type : ColumnType} {width : ℕ} (h : (type, width) ∈ integerColumns)
    (x : Double) :
    bind (.real x) type =
      match integral? x with
      | some n => bind (.integer n) type
      | none => .error (.notAnInteger x) := by
  simp only [integerColumns, List.mem_cons, List.not_mem_nil, or_false, Prod.mk.injEq] at h
  rcases h with ⟨rfl, -⟩ | ⟨rfl, -⟩ | ⟨rfl, -⟩
  all_goals
    show (bindReal x _).map some = _
    unfold bindReal
    dsimp only
    cases integral? x with
    | none => rfl
    | some n => rfl

/-- The integers of a range are integers of 64 bits. -/
theorem exists_int64_of_inRange {width : ℕ} (hwidth : width ≤ 8) {n : ℤ} (hn : InRange width n) :
    ∃ m : Int64, m.toInt = n := by
  have hpow : (2 : ℤ) ^ (8 * width - 1) ≤ 2 ^ 63 :=
    pow_le_pow_right₀ one_le_two (by omega)
  exact ⟨Int64.ofInt n, Int64.toInt_ofInt_of_le ((neg_le_neg hpow).trans hn.1)
    (hn.2.trans_le hpow)⟩

/-- A real is bound to a column of integers if and only if it is an integer of its range. -/
theorem exists_bindReal_iff {type : ColumnType} {width : ℕ} (h : (type, width) ∈ integerColumns)
    (x : Double) :
    (∃ bytes, bind (.real x) type = .ok (some bytes)) ↔
      ∃ n : ℤ, x.rational? = some (n : ℚ) ∧ InRange width n := by
  rw [bindReal_spec h]
  constructor
  · intro hbytes
    cases hx : integral? x with
    | none =>
      rw [hx] at hbytes
      obtain ⟨bytes, hbytes⟩ := hbytes
      cases hbytes
    | some n =>
      rw [hx] at hbytes
      exact ⟨n.toInt, integral?_eq_some_iff.mp hx, (exists_bindInteger_iff h n).mp hbytes⟩
  · rintro ⟨n, hx, hn⟩
    obtain ⟨m, rfl⟩ := exists_int64_of_inRange (width_spec h).2 hn
    rw [integral?_eq_some_iff.mpr hx]
    exact (exists_bindInteger_iff h m).mpr hn

/-- **The number in a column of integers is the one that was bound.** An integer is bound exactly if
it is in the range of the column, its bytes denote it, and otherwise the fault says on which side of
the range it is. A real is bound exactly if the number that its bits denote is an integer in the
range of the column, and then, as for any integer of 64 bits, with what becomes of that integer;
what is not a number, infinities, fractions and all beyond 64 bits are refused. -/
theorem bind_integers {type : ColumnType} {width : ℕ} (h : (type, width) ∈ integerColumns) :
    (∀ n : Int64,
      ((∃ bytes, bind (.integer n) type = .ok (some bytes)) ↔ InRange width n.toInt) ∧
      (∀ bytes, bind (.integer n) type = .ok (some bytes) → word? width bytes = some n.toInt) ∧
      (2 ^ (8 * width - 1) ≤ n.toInt → ∃ fault, bind (.integer n) type = .error fault ∧
        fault.message = "number too large to fit in target type") ∧
      (n.toInt < -2 ^ (8 * width - 1) → ∃ fault, bind (.integer n) type = .error fault ∧
        fault.message = "number too small to fit in target type")) ∧
    ∀ x : Double,
      ((∃ bytes, bind (.real x) type = .ok (some bytes)) ↔
        ∃ n : ℤ, x.rational? = some (n : ℚ) ∧ InRange width n) ∧
      (∀ n : Int64, x.rational? = some (n.toInt : ℚ) →
        bind (.real x) type = bind (.integer n) type) ∧
      (x.isNaN = true ∨ x.isInfinite = true ∨ (∃ q, x.rational? = some q ∧
          (2 ^ 63 ≤ q ∨ q < -2 ^ 63 ∨ ∀ n : ℤ, q ≠ n)) →
        bind (.real x) type = .error (.notAnInteger x)) := by
  refine ⟨fun n => ⟨exists_bindInteger_iff h n, ?bytes, ?large, ?small⟩,
    fun x => ⟨exists_bindReal_iff h x, ?same, ?refused⟩⟩
  case bytes =>
    intro bytes hbytes
    have hn := (exists_bindInteger_iff h n).mp ⟨bytes, hbytes⟩
    rw [bindInteger_spec h, if_neg (not_le.mpr hn.2), if_neg (not_lt.mpr hn.1)] at hbytes
    cases hbytes
    exact word?_of_inRange (width_spec h).1 hn
  case large =>
    intro hn
    exact ⟨_, (bindInteger_spec h n).trans (if_pos hn), rfl⟩
  case small =>
    intro hn
    have hle : ¬ 2 ^ (8 * width - 1) ≤ n.toInt := by
      have hpos : (0 : ℤ) < 2 ^ (8 * width - 1) := by positivity
      omega
    exact ⟨_, (bindInteger_spec h n).trans ((if_neg hle).trans (if_pos hn)), rfl⟩
  case same =>
    intro n hx
    rw [bindReal_spec h, integral?_eq_some_iff.mpr hx]
  case refused =>
    intro hx
    have hnone : integral? x = none := by
      rw [Option.eq_none_iff_forall_ne_some]
      intro n hn
      have hq := integral?_eq_some_iff.mp hn
      rcases hx with hnan | hinfinite | ⟨q, hx, hq'⟩
      · cases (Double.rational?_eq_none (.inl hnan)).symm.trans hq
      · cases (Double.rational?_eq_none (.inr hinfinite)).symm.trans hq
      · obtain rfl := Option.some.inj (hx.symm.trans hq)
        obtain ⟨hlow, hhigh⟩ := inRange_int64 n
        rcases hq' with hlarge | hsmall | hfraction
        · exact absurd hhigh (not_lt.mpr (by exact_mod_cast hlarge))
        · exact absurd hlow (not_le.mpr (by exact_mod_cast hsmall))
        · exact hfraction _ rfl
    rw [bindReal_spec h, hnone]

theorem bind_integers_sampled :
    ((ColumnType.builtin .int2, 2) ∈ integerColumns ∧
      (ColumnType.builtin .int8, 8) ∈ integerColumns) ∧
    word? 2 [0x80, 0x00] = some (-32768) ∧
    (∃ fault, bind (.integer 32768) (.builtin .int2) = .error fault ∧
      fault.message = "number too large to fit in target type") ∧
    (∃ fault, bind (.integer (-32769)) (.builtin .int2) = .error fault ∧
      fault.message = "number too small to fit in target type") ∧
    bind (.real ⟨0x8000000000000000⟩) (.builtin .int2) = .ok (some [0, 0]) ∧
    bind (.real ⟨0xC3E0000000000000⟩) (.builtin .int8) =
      .ok (some [0x80, 0, 0, 0, 0, 0, 0, 0]) ∧
    bind (.real ⟨0x43E0000000000000⟩) (.builtin .int8) =
      .error (.notAnInteger ⟨0x43E0000000000000⟩) ∧
    bind (.real ⟨0x7FF0000000000000⟩) (.builtin .int8) =
      .error (.notAnInteger ⟨0x7FF0000000000000⟩) := by
  have hint2 : (ColumnType.builtin .int2, 2) ∈ integerColumns := by decide
  have hint8 : (ColumnType.builtin .int8, 8) ∈ integerColumns := by decide
  obtain ⟨hinteger2, hreal2⟩ := bind_integers hint2
  obtain ⟨-, hreal8⟩ := bind_integers hint8
  have hzero : (⟨0x8000000000000000⟩ : Double).rational? = some ((0 : Int64).toInt : ℚ) := by
    rw [Double.rational?, show (⟨0x8000000000000000⟩ : Double).exponentField = 0 by decide,
      show (⟨0x8000000000000000⟩ : Double).fractionField = 0 by decide]
    simp
  have hlower : (⟨0xC3E0000000000000⟩ : Double).rational? =
      some (Int64.minValue.toInt : ℚ) := by
    rw [rational?_lower, Int64.toInt_minValue]
    norm_num
  refine ⟨⟨hint2, hint8⟩, (hinteger2 (-32768)).2.1 _ rfl, (hinteger2 32768).2.2.1 (by decide),
    (hinteger2 (-32769)).2.2.2 (by decide), ((hreal2 _).2.1 0 hzero).trans rfl,
    ((hreal8 _).2.1 Int64.minValue hlower).trans rfl, (hreal8 _).2.2 ?_,
    (hreal8 _).2.2 (.inr (.inl (by decide)))⟩
  exact .inr (.inr ⟨_, rational?_upper, .inl le_rfl⟩)

end Postgres

end Tabular
