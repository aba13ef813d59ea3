import Tabular.Proofs.Calendar.CanonicalText
import Tabular.Proofs.Fragment.Symbols
import Tabular.Proofs.Statement.Contents

/-!
# The order of instants and of their texts

Canonical text of the years 0 to 9999 is ordered, byte by byte, as what it keeps of instants is in
time. What a comparison of timestamps kept as text finds is what a comparison of the instants to the
second would find, but for strays, which cannot be told from the second after the one that runs on.

- `Instant` is ordered by seconds, and within a second by nanoseconds.
- `Layout.write_lt_write`: a layout writes numbers in the order of the numbers.
- `Date.ofDays_precedes`: dates come in the order of their days.
- `Instant.numbers_lt`: so do the numbers of canonical text, leap seconds included.
- `Instant.kept_lt_or_eq`: a later instant is kept as a later one or as the same one.
- `Instant.canonical_order`: **canonical texts are in the order of their instants**, and so are the
  parameters that comparisons bind.
-/

namespace Tabular

/-! ## The order of texts -/

namespace Text

/-- Of lists that begin with equally many elements the beginnings decide first. -/
theorem append_lt_append {α : Type} [LT α] {xs ys : List α} (h : xs < ys)
    (hlength : xs.length = ys.length) (us vs : List α) : xs ++ us < ys ++ vs := by
  induction xs generalizing ys with
  | nil =>
    cases ys with
    | nil => exact absurd h (List.not_lt_nil [])
    | cons y ys => cases hlength
  | cons x xs ih =>
    cases ys with
    | nil => exact absurd h (List.not_lt_nil _)
    | cons y ys =>
      rw [List.cons_append, List.cons_append, List.cons_lt_cons_iff]
      rcases List.cons_lt_cons_iff.mp h with hxy | ⟨hxy, hrest⟩
      · exact .inl hxy
      · exact .inr ⟨hxy, ih hrest (Nat.succ.inj hlength)⟩

theorem digitChar_lt {m n : Nat} (h : m < n) (hn : n < 10) : digitChar m < digitChar n := by
  rw [Char.lt_def, UInt32.lt_iff_toNat_lt]
  show (digitChar m).toNat < (digitChar n).toNat
  rw [digitChar_toNat (by omega), digitChar_toNat hn]
  omega

/-- Numbers in equally many digits are ordered as texts. -/
theorem fixed_lt_fixed {w m n : Nat} (h : m < n) (hn : n < Nat.pow 10 w) :
    fixed w m < fixed w n := by
  induction w generalizing m n with
  | zero =>
    have hzero : n < 1 := hn
    omega
  | succ w ih =>
    rw [fixed, fixed]
    have hw : n / 10 < Nat.pow 10 w := (Nat.div_lt_iff_lt_mul (by decide)).2 hn
    by_cases htens : m / 10 < n / 10
    · exact append_lt_append (ih htens hw) (by simp) _ _
    · -- the digits before the last are the same
      have heq : m / 10 = n / 10 := by omega
      rw [heq]
      refine List.append_left_lt (List.cons_lt_cons_iff.mpr (.inl ?_))
      exact digitChar_lt (by omega) (Nat.mod_lt _ (by decide))

theorem toUInt8_lt {c d : Char} (h : c < d) (hd : d.toNat < 128) : c.toUInt8 < d.toUInt8 := by
  have hlt : c.toNat < d.toNat := UInt32.lt_iff_toNat_lt.mp h
  rw [UInt8.lt_iff_toNat_lt]
  show c.toNat % 256 < d.toNat % 256
  omega

/-- An ASCII text has a byte for each of its characters. -/
theorem utf8_ascii {s : String} (h : ∀ c ∈ s.toList, c.toNat < 128) :
    utf8 s = s.toList.map Char.toUInt8 := by
  have hbytes : ∀ cs : List Char, (∀ c ∈ cs, c.toNat < 128) →
      cs.flatMap String.utf8EncodeChar = cs.map Char.toUInt8 := by
    intro cs hcs
    induction cs with
    | nil => rfl
    | cons c cs ih =>
      obtain ⟨hc, hrest⟩ := List.forall_mem_cons.mp hcs
      have hsize : c.utf8Size = 1 := by
        rw [Char.utf8Size_eq_one_iff, UInt32.le_iff_toNat_le]
        exact Nat.le_of_lt_succ hc
      rw [List.flatMap_cons, List.map_cons, ih hrest, String.utf8EncodeChar_eq_singleton hsize]
      rfl
  rw [utf8_eq_flatMap, hbytes s.toList h]

/-- ASCII texts are ordered as their bytes are. -/
theorem utf8_lt_utf8 {s u : String} (hs : ∀ c ∈ s.toList, c.toNat < 128)
    (hu : ∀ c ∈ u.toList, c.toNat < 128) (h : s.toList < u.toList) : utf8 s < utf8 u := by
  rw [utf8_ascii hs, utf8_ascii hu]
  generalize s.toList = cs at hs h
  generalize u.toList = ds at hu h
  induction cs generalizing ds with
  | nil =>
    cases ds with
    | nil => exact absurd h (List.not_lt_nil [])
    | cons d ds => exact List.nil_lt_cons _ _
  | cons c cs ih =>
    cases ds with
    | nil => exact absurd h (List.not_lt_nil _)
    | cons d ds =>
      obtain ⟨hd, hds⟩ := List.forall_mem_cons.mp hu
      rw [List.map_cons, List.map_cons, List.cons_lt_cons_iff]
      rcases List.cons_lt_cons_iff.mp h with hcd | ⟨rfl, hrest⟩
      · exact .inl (toUInt8_lt hcd hd)
      · exact .inr ⟨rfl, ih (List.forall_mem_cons.mp hs).2 ds hds hrest⟩

end Text

namespace Layout

/-- A layout writes numbers in the order of the numbers. -/
theorem write_lt_write {l : Layout} {ms ns : List Nat} (hms : l.Fits ms) (hns : l.Fits ns)
    (h : ms < ns) : l.write ms < l.write ns := by
  induction l generalizing ms ns with
  | nil =>
    cases hns
    exact absurd h (List.not_lt_nil ms)
  | cons slot l ih =>
    cases slot with
    | mark c => exact List.cons_lt_cons_iff.mpr (.inr ⟨rfl, ih hms hns h⟩)
    | digits w =>
      cases ms with
      | nil => exact hms.elim
      | cons m ms =>
        cases ns with
        | nil => exact hns.elim
        | cons n ns =>
          rw [write, write]
          rcases List.cons_lt_cons_iff.mp h with hmn | ⟨rfl, hrest⟩
          · exact Text.append_lt_append (Text.fixed_lt_fixed hmn hns.1) (by simp) _ _
          · exact List.append_left_lt (ih hms.2 hns.2 hrest)

/-- A layout whose marks are ASCII characters writes ASCII text. -/
theorem ascii_write {l : Layout} (h : ∀ c, .mark c ∈ l → c.toNat < 128) (ns : List Nat) :
    ∀ c ∈ l.write ns, c.toNat < 128 := by
  have hdigits : ∀ (w n : Nat), ∀ c ∈ Text.fixed w n, c.toNat < 128 := by
    intro w n c hc
    have hdigit := Text.isDigit_of_mem_fixed hc
    simp only [Char.isDigit, ge_iff_le, UInt32.le_iff_toNat_le, Bool.and_eq_true,
      decide_eq_true_eq] at hdigit
    have hle : c.toNat ≤ 57 := hdigit.2
    omega
  induction l generalizing ns with
  | nil => nofun
  | cons slot l ih =>
    have hrest := ih fun c hc => h c (List.mem_cons_of_mem _ hc)
    cases slot with
    | mark c => exact List.forall_mem_cons.mpr ⟨h c (by simp), hrest ns⟩
    | digits w =>
      cases ns with
      | nil => exact List.forall_mem_append.mpr ⟨hdigits w 0, hrest []⟩
      | cons n ns => exact List.forall_mem_append.mpr ⟨hdigits w n, hrest ns⟩

end Layout

/-! ## The order of days -/

namespace Date

/-- A date comes before another one in the calendar. -/
def Precedes (d e : Date) : Prop :=
  d.year < e.year ∨ d.year = e.year ∧ (d.month < e.month ∨ d.month = e.month ∧ d.day < e.day)

/-- Later days lie in later years or in the same one. -/
theorem yearOf_mono {m n : Int} (h : m ≤ n) : yearOf m ≤ yearOf n := by
  obtain ⟨hm, -⟩ := yearOf_bounds m
  obtain ⟨-, hn⟩ := yearOf_bounds n
  rcases Int.lt_or_le (yearOf n) (yearOf m) with hlt | hle
  · -- the year of the earlier day would begin after that of the later one has ended
    have hyears := daysBeforeYear_mono (Int.add_one_le_of_lt hlt)
    omega
  · exact hle

/-- Later days of a year lie in later months, or later in the same one. -/
theorem locate_lt {ls : List Nat} {m n : Nat} (h : m < n) (hn : n < total ls) :
    (locate ls m).1 < (locate ls n).1 ∨
      (locate ls m).1 = (locate ls n).1 ∧ (locate ls m).2 < (locate ls n).2 := by
  induction ls generalizing m n with
  | nil => exact absurd hn (Nat.not_lt_zero n)
  | cons l ls ih =>
    rw [total] at hn
    by_cases hfirst : n < l
    · rw [locate, locate, if_pos hfirst, if_pos (by omega)]
      exact .inr ⟨rfl, h⟩
    · rw [locate, locate, if_neg hfirst]
      by_cases hm : m < l
      · rw [if_pos hm]
        exact .inl (Nat.succ_pos _)
      · rw [if_neg hm]
        rcases ih (m := m - l) (n := n - l) (by omega) (by omega) with hmonth | ⟨hmonth, hday⟩
        · exact .inl (Nat.succ_lt_succ hmonth)
        · exact .inr ⟨congrArg Nat.succ hmonth, hday⟩

theorem month_ofDays (n : Int) : (ofDays n).month =
    (locate (monthLengths (yearOf (n + epoch)))
      (n + epoch - daysBeforeYear (yearOf (n + epoch))).toNat).1 + 1 := rfl

theorem day_ofDays (n : Int) : (ofDays n).day =
    (locate (monthLengths (yearOf (n + epoch)))
      (n + epoch - daysBeforeYear (yearOf (n + epoch))).toNat).2 + 1 := rfl

/-- Dates come in the order of their days. -/
theorem ofDays_precedes {m n : Int} (h : m < n) : (ofDays m).Precedes (ofDays n) := by
  rw [Precedes, year_ofDays, year_ofDays]
  have hyears := yearOf_mono (Int.add_le_add_right (Int.le_of_lt h) epoch)
  rcases Int.lt_or_eq_of_le hyears with hlt | heq
  · exact .inl hlt
  · -- in one year the months decide, and then the days of the month
    have hbegin := (yearOf_bounds (m + epoch)).1
    rw [heq] at hbegin
    have hday : (m + epoch - daysBeforeYear (yearOf (n + epoch))).toNat <
        (n + epoch - daysBeforeYear (yearOf (n + epoch))).toNat := by
      omega
    have hlocate := locate_lt hday (dayOfYear_lt (n + epoch))
    rw [month_ofDays, month_ofDays, day_ofDays, day_ofDays, heq]
    omega

end Date

/-! ## The order of instants -/

namespace Instant

/-- Instants are ordered by second, and within a second by nanosecond: a leap second comes after
the second that runs on in it and before the next one. -/
instance : LT Instant where
  lt t u := t.seconds < u.seconds ∨ t.seconds = u.seconds ∧ t.nanos < u.nanos

instance : LE Instant where
  le t u := t.seconds < u.seconds ∨ t.seconds = u.seconds ∧ t.nanos ≤ u.nanos

theorem lt_def (t u : Instant) :
    t < u ↔ t.seconds < u.seconds ∨ t.seconds = u.seconds ∧ t.nanos < u.nanos := Iff.rfl

theorem le_def (t u : Instant) :
    t ≤ u ↔ t.seconds < u.seconds ∨ t.seconds = u.seconds ∧ t.nanos ≤ u.nanos := Iff.rfl

theorem lt_irrefl (t : Instant) : ¬ t < t := by
  rw [lt_def]
  omega

theorem lt_asymm {t u : Instant} (h : t < u) : ¬ u < t := by
  rw [lt_def] at h ⊢
  omega

theorem lt_trichotomy (t u : Instant) : t < u ∨ t = u ∨ u < t := by
  by_cases h : t.seconds = u.seconds ∧ t.nanos = u.nanos
  · exact .inr (.inl (Instant.ext h.1 h.2))
  · rw [lt_def, lt_def]
    omega

/-- Of a later instant something later is kept, or the same. -/
theorem kept_lt_or_eq {t u : Instant} (h : t ≤ u) : t.kept < u.kept ∨ t.kept = u.kept := by
  rw [le_def] at h
  rcases lt_trichotomy t.kept u.kept with hlt | heq | hgt
  · exact .inl hlt
  · exact .inr heq
  · -- what is kept begins no earlier than the second, and no later than the next one
    have ht := t.kept_cases
    have hu := u.kept_cases
    simp only [Stray, isLeap, decide_eq_true_iff] at ht hu
    rw [lt_def] at hgt
    split at ht
    · split at hu
      · omega
      · omega
    · split at hu
      · omega
      · omega

/-- What decides between two seconds: the day, the second of the day, and whether it is the leap
second after it. -/
theorem days_lt_of_lt {t u : Instant} (h : t.wholeSecond < u.wholeSecond) :
    t.days < u.days ∨ t.days = u.days ∧
      (t.secondOfDay < u.secondOfDay ∨
        t.secondOfDay = u.secondOfDay ∧ t.isLeap = false ∧ u.isLeap = true) := by
  have hdayt := t.secondOfDay_eq
  have hdayu := u.secondOfDay_eq
  rw [days, days]
  rcases h with hlt | ⟨heq, hnanos⟩
  · have hseconds : t.seconds < u.seconds := hlt
    omega
  · have hseconds : t.seconds = u.seconds := heq
    rw [nanos_wholeSecond, nanos_wholeSecond] at hnanos
    have hleap : t.isLeap = false ∧ u.isLeap = true := by
      cases ht : t.isLeap with
      | true =>
        rw [ht, if_pos rfl] at hnanos
        split at hnanos
        · omega
        · omega
      | false =>
        cases hu : u.isLeap with
        | true => exact ⟨rfl, rfl⟩
        | false =>
          rw [ht, hu] at hnanos
          exact absurd hnanos (Nat.lt_irrefl _)
    rw [hseconds]
    exact .inr ⟨rfl, .inr ⟨by omega, hleap⟩⟩

/-- The numbers of canonical text come in the order of the seconds, but for strays. -/
theorem numbers_lt_of_not_stray {t u : Instant} (ht : ¬ t.Stray) (hu : ¬ u.Stray)
    (hyear : 0 ≤ t.date.year) (h : t.wholeSecond < u.wholeSecond) : t.numbers < u.numbers := by
  simp only [numbers, List.cons_lt_cons_iff]
  rcases days_lt_of_lt h with hlt | ⟨heq, hlt⟩
  · have hdate : t.date.Precedes u.date := Date.ofDays_precedes hlt
    rw [Date.Precedes] at hdate
    omega
  · have hdate : t.date = u.date := congrArg Date.ofDays heq
    have hlet := t.second_le
    obtain ⟨hmint, hleapt⟩ := second_spec ht
    obtain ⟨hminu, hleapu⟩ := second_spec hu
    rw [hdate, hour, minute, hour, minute]
    rcases hlt with hlt | ⟨heq, hnot, hleap⟩
    · by_cases hleap : t.isLeap = true
      · -- a leap second ends its minute, so that the later second is in a later one
        have hlast := secondOfDay_of_isLeap ht hleap
        omega
      · have hsecond : t.second ≠ 60 := fun hsixty => hleap (hleapt.mp hsixty)
        omega
    · have hsecond : t.second ≠ 60 := by
        intro hsixty
        rw [hleapt.mp hsixty] at hnot
        cases hnot
      have hsixty := hleapu.mpr hleap
      omega

/-- The numbers of canonical text come in the order of what is kept. -/
theorem numbers_lt {t u : Instant} (ht : 0 ≤ t.date.year) (h : t.kept < u.kept) :
    t.numbers < u.numbers := by
  have hyear : 0 ≤ t.kept.date.year := by
    rw [t.fields_kept.1]
    exact ht
  rw [← wholeSecond_kept t, ← wholeSecond_kept u] at h
  rw [← numbers_kept t, ← numbers_kept u]
  exact numbers_lt_of_not_stray t.not_stray_kept u.not_stray_kept hyear h

/-! ## The order of canonical texts -/

theorem ascii_canonical {t : Instant} (ht : 0 ≤ t.date.year ∧ t.date.year ≤ 9999) :
    ∀ c ∈ t.canonical.toList, c.toNat < 128 := by
  rw [toList_canonical ht.1 ht.2]
  exact Layout.ascii_write (by simp [TemporalShape.layout]) t.numbers

/-- An instant of which something later is kept has a later text. -/
theorem utf8_canonical_lt {t u : Instant} (ht : 0 ≤ t.date.year ∧ t.date.year ≤ 9999)
    (hu : 0 ≤ u.date.year ∧ u.date.year ≤ 9999) (h : t.kept < u.kept) :
    Text.utf8 t.canonical < Text.utf8 u.canonical := by
  refine Text.utf8_lt_utf8 (ascii_canonical ht) (ascii_canonical hu) ?_
  rw [toList_canonical ht.1 ht.2, toList_canonical hu.1 hu.2]
  exact Layout.write_lt_write (fits_numbers ht.2) (fits_numbers hu.2) (numbers_lt ht.1 h)

/-- Texts are ordered as what they keep is. -/
theorem utf8_canonical_lt_iff {t u : Instant} (ht : 0 ≤ t.date.year ∧ t.date.year ≤ 9999)
    (hu : 0 ≤ u.date.year ∧ u.date.year ≤ 9999) :
    Text.utf8 t.canonical < Text.utf8 u.canonical ↔ t.kept < u.kept := by
  constructor
  · intro h
    rcases lt_trichotomy t.kept u.kept with hlt | heq | hgt
    · exact hlt
    · rw [← canonical_kept t, heq, canonical_kept] at h
      exact absurd h (List.lt_irrefl _)
    · exact absurd h (List.lt_asymm (utf8_canonical_lt hu ht hgt))
  · exact utf8_canonical_lt ht hu

/-- Texts are the same exactly if they keep the same. -/
theorem canonical_eq_iff {t u : Instant} (ht : 0 ≤ t.date.year ∧ t.date.year ≤ 9999)
    (hu : 0 ≤ u.date.year ∧ u.date.year ≤ 9999) :
    t.canonical = u.canonical ↔ t.kept = u.kept := by
  constructor
  · intro h
    rcases lt_trichotomy t.kept u.kept with hlt | heq | hgt
    · have htext := utf8_canonical_lt ht hu hlt
      rw [h] at htext
      exact absurd htext (List.lt_irrefl _)
    · exact heq
    · have htext := utf8_canonical_lt hu ht hgt
      rw [h] at htext
      exact absurd htext (List.lt_irrefl _)
  · intro h
    rw [← canonical_kept t, h, canonical_kept]

end Instant

/-! ## The order of parameters -/

/-- A filter on one column binds what the condition on it binds. -/
theorem Filter.params_clause_of_one {κ : Type} [Named κ] {f : Filter κ} {column : κ}
    {c : Condition} {v : Value} (hf : f.columns.entries = [(column, c)])
    (hc : (c.clause (Named.name column)).WellFormed)
    (hv : (c.clause (Named.name column)).params = [v]) : f.clause.params = [v] := by
  have hall : ∀ a ∈ [c.clause (Named.name column)], a.WellFormed := List.forall_mem_singleton.mpr hc
  have hconjoined : f.conjoined = Fragment.join " AND " [c.clause (Named.name column)] := by
    rw [Filter.conjoined, hf]
    rfl
  have hparams : f.conjoined.params = [v] := by
    rw [hconjoined, Fragment.params_join _ hall, List.flatMap_singleton, hv]
  rw [f.clause_eq]
  split
  next hempty =>
    -- a clause without text would bind nothing
    have hwellFormed : f.conjoined.WellFormed := by
      rw [hconjoined]
      exact Fragment.wellFormed_join _ hall
    rw [hwellFormed.params_eq_nil (hwellFormed.isEmpty_iff.mp hempty)] at hparams
    cases hparams
  next => exact hparams

theorem Comparison.wellFormed_clause (op : Comparison) (column : String) (v : Value) :
    (op.clause column v).WellFormed :=
  (Fragment.wellFormed_raw _).append (Fragment.wellFormed_bind v)

theorem Filter.params_equals {κ : Type} [Named κ] (column : κ) (v : Value) :
    ((Filter.empty : Filter κ).equals column v).clause.params = [v.encoded] :=
  Filter.params_clause_of_one rfl (Comparison.equal.wellFormed_clause _ v) rfl

theorem Filter.params_holds {κ : Type} [Named κ] (column : κ) (op : Comparison) (v : Value) :
    ((Filter.empty : Filter κ).holds column op v).clause.params = [v.encoded] := by
  have hclause : (Condition.compare (.single op (.one v))).clause (Named.name column) =
      Fragment.join " AND " [op.clause (Named.name column) v] := by
    cases op <;> rfl
  have hall := List.forall_mem_singleton.mpr (op.wellFormed_clause (Named.name column) v)
  refine Filter.params_clause_of_one (c := .compare (.single op (.one v))) rfl ?_ ?_
  · rw [hclause]
    exact Fragment.wellFormed_join _ hall
  · rw [hclause, Fragment.params_join _ hall]
    rfl

/-- A condition with one operand binds one text for each of two instants, and these texts are in
the order of what they keep of the instants. -/
def BindsInOrder (condition : Value → Fragment) (t u : Instant) : Prop :=
  ∃ s r, (condition (.timestamp t)).params = [.text s] ∧
    (condition (.timestamp u)).params = [.text r] ∧
    (Text.utf8 s < Text.utf8 r ↔ t.kept < u.kept) ∧ (s = r ↔ t.kept = u.kept)

/-- **Canonical texts are in the order of their instants.** In the years 0 to 9999 an instant that
is not after another one has no later text, byte by byte, and it has an earlier text exactly if its
second is an earlier one; a leap second lies between its `:59` and the next `:00`. A stray counts as
the second after the one that runs on, since that is what its text keeps. So the texts that
conditions on a column bind are in the order of the instants to the second. -/
theorem Instant.canonical_order {κ : Type} [Named κ] {t u : Instant}
    (ht : 0 ≤ t.date.year ∧ t.date.year ≤ 9999) (hu : 0 ≤ u.date.year ∧ u.date.year ≤ 9999) :
    (t ≤ u → Text.utf8 t.canonical ≤ Text.utf8 u.canonical) ∧
      (Text.utf8 t.canonical < Text.utf8 u.canonical ↔ t.kept < u.kept) ∧
      (¬ t.Stray → ¬ u.Stray →
        (Text.utf8 t.canonical < Text.utf8 u.canonical ↔ t.wholeSecond < u.wholeSecond)) ∧
      ∀ column : κ,
        BindsInOrder (fun v => ((Filter.empty : Filter κ).equals column v).clause) t u ∧
          ∀ op : Comparison,
            BindsInOrder (fun v => ((Filter.empty : Filter κ).holds column op v).clause) t u := by
  have hlt := utf8_canonical_lt_iff ht hu
  have heq := canonical_eq_iff ht hu
  refine ⟨?order, hlt, ?ends, fun column => ⟨?equals, fun op => ?holds⟩⟩
  case order =>
    intro h
    show ¬ Text.utf8 u.canonical < Text.utf8 t.canonical
    rw [utf8_canonical_lt_iff hu ht]
    rcases kept_lt_or_eq h with hkept | hkept
    · exact lt_asymm hkept
    · rw [hkept]
      exact lt_irrefl _
  case ends =>
    intro hstray hstray'
    rw [hlt, kept_of_not_stray hstray, kept_of_not_stray hstray']
  case equals =>
    exact ⟨t.canonical, u.canonical, Filter.params_equals column _, Filter.params_equals column _,
      hlt, heq⟩
  case holds =>
    exact ⟨t.canonical, u.canonical, Filter.params_holds column op _,
      Filter.params_holds column op _, hlt, heq⟩

/-- A stray lies before the second that is kept of it and has the same text, not an earlier one. -/
theorem Instant.canonical_stray_not_earlier :
    (0 ≤ sampledStray.date.year ∧ sampledStray.date.year ≤ 9999) ∧
      (0 ≤ sampledStray.kept.date.year ∧ sampledStray.kept.date.year ≤ 9999) ∧
      (sampledStray.wholeSecond.seconds = 1717230605 ∧
        sampledStray.wholeSecond.nanos = 1000000000) ∧
      (sampledStray.kept.wholeSecond.seconds = 1717230606 ∧
        sampledStray.kept.wholeSecond.nanos = 0) ∧
      sampledStray.wholeSecond < sampledStray.kept.wholeSecond ∧
      sampledStray.canonical = "2024-06-01 08:30:06" ∧
      sampledStray.kept.canonical = "2024-06-01 08:30:06" ∧
      ¬ Text.utf8 sampledStray.canonical < Text.utf8 sampledStray.kept.canonical := by
  refine ⟨by decide +kernel, by decide +kernel, by decide, by decide, .inl (by decide),
    by decide +kernel, by decide +kernel, by decide +kernel⟩

/-- Four tenths of a second into the leap second at the end of June 1972. -/
def sampledJune : Instant where
  seconds := 78796799
  nanos := 1400000000
  nanos_lt := by decide
  first_le := by decide
  le_last := by decide

/-- A nanosecond into July 1972. -/
def sampledJuly : Instant where
  seconds := 78796800
  nanos := 1
  nanos_lt := by decide
  first_le := by decide
  le_last := by decide

theorem Instant.canonical_order_sampled :
    (0 ≤ sampledJune.date.year ∧ sampledJune.date.year ≤ 9999) ∧
      (0 ≤ sampledJuly.date.year ∧ sampledJuly.date.year ≤ 9999) ∧
      sampledJune.canonical = "1972-06-30 23:59:60" ∧
      sampledJuly.canonical = "1972-07-01 00:00:00" ∧
      sampledJune ≤ sampledJuly ∧ sampledJune.wholeSecond < sampledJuly.wholeSecond ∧
      Text.utf8 sampledJune.canonical ≤ Text.utf8 sampledJuly.canonical ∧
      Text.utf8 sampledJune.canonical < Text.utf8 sampledJuly.canonical ∧
      BindsInOrder (fun v => ((Filter.empty : Filter String).holds "seen" .less v).clause)
        sampledJune sampledJuly := by
  have hjune : 0 ≤ sampledJune.date.year ∧ sampledJune.date.year ≤ 9999 := by decide +kernel
  have hjuly : 0 ≤ sampledJuly.date.year ∧ sampledJuly.date.year ≤ 9999 := by decide +kernel
  have hle : sampledJune ≤ sampledJuly := .inl (by decide)
  have hlt : sampledJune.wholeSecond < sampledJuly.wholeSecond := .inl (by decide)
  obtain ⟨horder, -, hiff, hbound⟩ := @Instant.canonical_order String _ _ _ hjune hjuly
  exact ⟨hjune, hjuly, by decide +kernel, by decide +kernel, hle, hlt, horder hle,
    (hiff (by decide) (by decide)).mpr hlt, (hbound "seen").2 .less⟩

end Tabular
