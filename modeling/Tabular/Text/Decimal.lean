/-!
# Decimal digits

Numbers as runs of ASCII digits.

- `fixed w n`: exactly `w` digits, the last `w` of `n`.
- `decimal n`: all digits of `n`, without leading zeros (`head?_decimal`).
- `padded w n`: all digits of `n`, at least `w` of them.
- `value`: the number that a run of digits denotes; `value (fixed w n) = n` for `n < 10 ^ w`
  (`value_fixed`), `value (decimal n) = n` for all (`value_decimal`), and `fixed` gives back every
  run of digits (`fixed_value`).
-/

namespace Tabular

namespace Text

/-- The number that a digit stands for. -/
def digitValue (c : Char) : Nat := c.toNat - 48

/-- The digit that stands for a number below ten. -/
def digitChar (n : Nat) : Char := Char.ofNat (48 + n)

theorem digitChar_toNat {n : Nat} (h : n < 10) : (digitChar n).toNat = 48 + n := by
  revert n
  decide

@[simp] theorem digitValue_digitChar {n : Nat} (h : n < 10) : digitValue (digitChar n) = n := by
  simp [digitValue, digitChar_toNat h]

theorem isDigit_digitChar {n : Nat} (h : n < 10) : (digitChar n).isDigit = true := by
  revert n
  decide

/-- The last `w` decimal digits of `n`, most significant first. -/
def fixed : Nat → Nat → List Char
  | 0, _ => []
  | w + 1, n => fixed w (n / 10) ++ [digitChar (n % 10)]

@[simp] theorem length_fixed (w n : Nat) : (fixed w n).length = w := by
  induction w generalizing n with
  | zero => rfl
  | succ w ih => simp [fixed, ih]

theorem isDigit_of_mem_fixed {w n : Nat} {c : Char} (h : c ∈ fixed w n) : c.isDigit = true := by
  induction w generalizing n with
  | zero => simp [fixed] at h
  | succ w ih =>
    simp only [fixed, List.mem_append, List.mem_singleton] at h
    rcases h with h | rfl
    · exact ih h
    · exact isDigit_digitChar (Nat.mod_lt _ (by decide))

/-- All digits of `n`; zero is written `0`. -/
def decimal (n : Nat) : List Char := Nat.toDigits 10 n

theorem isDigit_of_mem_decimal {n : Nat} {c : Char} (h : c ∈ decimal n) : c.isDigit = true :=
  Nat.isDigit_of_mem_toDigits (by decide) (by decide) h

theorem decimal_ne_nil (n : Nat) : decimal n ≠ [] := Nat.toDigits_ne_nil

/-- Only zero begins with a zero. -/
theorem head?_decimal {n : Nat} (h : n ≠ 0) : (decimal n).head? ≠ some '0' := by
  induction n using Nat.strongRecOn with
  | ind n ih =>
    by_cases hn : n < 10
    · have hall : ∀ m < 10, m ≠ 0 → (Nat.toDigits 10 m).head? ≠ some '0' := by decide
      exact hall n hn h
    · -- the first digit of `n / 10` stays in front of the last digit of `n`
      obtain ⟨d, ds, hds⟩ := List.exists_cons_of_ne_nil (decimal_ne_nil (n / 10))
      have hsplit : decimal n = decimal (n / 10) ++ [Nat.digitChar (n % 10)] :=
        Nat.toDigits_of_base_le (by decide) (by omega)
      have hhead := ih (n / 10) (by omega) (by omega)
      rw [hds] at hhead
      rw [hsplit, hds]
      exact hhead

/-- All digits of `n`, with leading zeros up to `w` digits. -/
def padded (w n : Nat) : List Char :=
  let ds := decimal n
  List.replicate (w - ds.length) '0' ++ ds

/-- The digits of an integer after its minus sign, if it has one. -/
def signed (n : Int) : List Char :=
  if n < 0 then '-' :: decimal n.natAbs else decimal n.natAbs

/-- The number that a run of digits denotes, after the digits read so far. -/
def valueFrom (n : Nat) (ds : List Char) : Nat := ds.foldl (fun n c => 10 * n + digitValue c) n

/-- The number that a run of digits denotes. -/
def value (ds : List Char) : Nat := valueFrom 0 ds

theorem value_decimal (n : Nat) : value (decimal n) = n :=
  Nat.ofDigitChars_toDigits (by decide) (by decide)

theorem value_append_singleton (ds : List Char) (c : Char) :
    value (ds ++ [c]) = 10 * value ds + digitValue c := by
  simp [value, valueFrom]

theorem value_fixed {w n : Nat} (h : n < Nat.pow 10 w) : value (fixed w n) = n := by
  induction w generalizing n with
  | zero =>
    have : n = 0 := by simpa using h
    simp [this, fixed, value, valueFrom]
  | succ w ih =>
    have hd : n / 10 < Nat.pow 10 w := (Nat.div_lt_iff_lt_mul (by decide)).2 h
    rw [fixed, value_append_singleton, ih hd, digitValue_digitChar (Nat.mod_lt _ (by decide))]
    omega

theorem digitChar_digitValue {c : Char} (h : c.isDigit = true) : digitChar (digitValue c) = c := by
  simp only [Char.isDigit, ge_iff_le, UInt32.le_iff_toNat_le, Bool.and_eq_true,
    decide_eq_true_eq] at h
  have h1 : 48 ≤ c.toNat := h.1
  unfold digitChar digitValue
  rw [show 48 + (c.toNat - 48) = c.toNat by omega]
  exact Char.ofNat_toNat c

theorem digitValue_lt {c : Char} (h : c.isDigit = true) : digitValue c < 10 := by
  simp only [Char.isDigit, ge_iff_le, UInt32.le_iff_toNat_le, Bool.and_eq_true,
    decide_eq_true_eq] at h
  have h2 : c.toNat ≤ 57 := h.2
  unfold digitValue
  omega

theorem fixed_value (w : Nat) (ds : List Char) (hw : ds.length = w)
    (hd : ∀ c ∈ ds, c.isDigit = true) : fixed w (value ds) = ds := by
  induction w generalizing ds with
  | zero =>
    rw [List.length_eq_zero_iff.1 hw]
    rfl
  | succ w ih =>
    rcases List.eq_nil_or_concat ds with rfl | ⟨es, c, rfl⟩
    · simp at hw
    · have hc : c.isDigit = true := hd c (by simp)
      have hlt := digitValue_lt hc
      have hes := ih es (by simpa using hw) (fun x hx => hd x (by simp [hx]))
      simp only [List.concat_eq_append] at *
      rw [value_append_singleton, fixed,
        show (10 * value es + digitValue c) / 10 = value es by omega,
        show (10 * value es + digitValue c) % 10 = digitValue c by omega, hes,
        digitChar_digitValue hc]

/-- A run of digits is found whole if no digit comes after it. -/
theorem takeWhile_isDigit_append {ds cs : List Char} (hds : ∀ c ∈ ds, c.isDigit = true)
    (hcs : ∀ c, cs.head? = some c → c.isDigit = false) :
    (ds ++ cs).takeWhile Char.isDigit = ds := by
  rw [List.takeWhile_append_of_pos hds]
  cases cs with
  | nil => simp
  | cons c cs => simp [hcs c rfl]

theorem dropWhile_isDigit_append {ds cs : List Char} (hds : ∀ c ∈ ds, c.isDigit = true)
    (hcs : ∀ c, cs.head? = some c → c.isDigit = false) :
    (ds ++ cs).dropWhile Char.isDigit = cs := by
  rw [List.dropWhile_append_of_pos hds]
  cases cs with
  | nil => rfl
  | cons c cs => simp [hcs c rfl]

/-- The unsigned number that a nonempty run of ASCII digits denotes. -/
def readNat? (cs : List Char) : Option Nat :=
  if cs ≠ [] ∧ cs.all Char.isDigit then some (value cs) else none

end Text

end Tabular
