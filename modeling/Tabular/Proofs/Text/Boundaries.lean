import Tabular.Table
import Tabular.Text.Bytes

/-!
# Texts cut off at character boundaries

A text is cut off at a number of bytes by walking back over the bytes that go on with a character,
and what is left is the longest prefix that fits.

- `Text.isBoundary`: a place among bytes where no byte goes on with a character. In the bytes of a
  text these are the ends of its prefixes (`isBoundary_utf8_iff`).
- `Text.boundaryBefore`: the walk back from a place to the next boundary.
- `Text.Clipped`: what is left of a text that is too long.
- `TableSettings.logged_clipped`: **a logged text is cut off only where it is too long, and then at
  the last boundary that fits.**
-/

namespace Tabular

namespace Text

/-- A byte that goes on with a character. -/
def isContinuation (b : UInt8) : Bool := 128 ≤ b.toNat && b.toNat < 192

/-- A character may begin or the bytes may end at this place. -/
def isBoundary (bs : Bytes) (i : Nat) : Bool :=
  i == 0 ||
    match bs[i]? with
    | some b => !isContinuation b
    | none => i == bs.length

/-- The last boundary that is not after a place. -/
def boundaryBefore (bs : Bytes) : Nat → Nat
  | 0 => 0
  | i + 1 => if isBoundary bs (i + 1) then i + 1 else boundaryBefore bs i

/-! ## Bytes of characters -/

theorem length_utf8 (s : String) : (utf8 s).length = s.utf8ByteSize := by
  rw [utf8, String.toUTF8_eq_toByteArray, ← String.size_toByteArray]
  rfl

@[simp] theorem utf8_append (s t : String) : utf8 (s ++ t) = utf8 s ++ utf8 t := by
  simp [utf8_eq_flatMap]

theorem isContinuation_ofNat (n : Nat) : isContinuation (UInt8.ofNat (n % 64 + 128)) = true := by
  rw [isContinuation, UInt8.toNat_ofNat', Bool.and_eq_true, decide_eq_true_iff, decide_eq_true_iff]
  omega

theorem isContinuation_eq_false {n : Nat} (h : n < 128 ∨ 192 ≤ n) (hbyte : n < 256) :
    isContinuation (UInt8.ofNat n) = false := by
  rw [isContinuation, UInt8.toNat_ofNat', Bool.and_eq_false_iff, decide_eq_false_iff_not,
    decide_eq_false_iff_not]
  omega

/-- A character begins with a byte that goes on with none, and all its other bytes go on with it. -/
theorem utf8EncodeChar_eq_cons (c : Char) : ∃ b bs, String.utf8EncodeChar c = b :: bs ∧
    isContinuation b = false ∧ ∀ x ∈ bs, isContinuation x = true := by
  unfold String.utf8EncodeChar
  dsimp only
  split
  · exact ⟨_, _, rfl, isContinuation_eq_false (by omega) (by omega), nofun⟩
  · split
    · refine ⟨_, _, rfl, isContinuation_eq_false (by omega) (by omega), ?_⟩
      simp only [List.forall_mem_cons, isContinuation_ofNat, true_and]
      exact nofun
    · split
      · refine ⟨_, _, rfl, isContinuation_eq_false (by omega) (by omega), ?_⟩
        simp only [List.forall_mem_cons, isContinuation_ofNat, true_and]
        exact nofun
      · refine ⟨_, _, rfl, isContinuation_eq_false (by omega) (by omega), ?_⟩
        simp only [List.forall_mem_cons, isContinuation_ofNat, true_and]
        exact nofun

/-- The bytes of characters. -/
def encoded (cs : List Char) : Bytes := cs.flatMap String.utf8EncodeChar

theorem encoded_cons (c : Char) (cs : List Char) :
    encoded (c :: cs) = String.utf8EncodeChar c ++ encoded cs :=
  List.flatMap_cons

@[simp] theorem encoded_append (cs ds : List Char) :
    encoded (cs ++ ds) = encoded cs ++ encoded ds :=
  List.flatMap_append

theorem length_encoded_cons (c : Char) (cs : List Char) :
    (encoded (c :: cs)).length = c.utf8Size + (encoded cs).length := by
  rw [encoded_cons, List.length_append, String.length_utf8EncodeChar]

/-! ## Boundaries -/

/-- The beginning needs no rule of its own: no character begins with a byte that goes on. -/
theorem isBoundary_encoded (cs : List Char) (i : Nat) :
    isBoundary (encoded cs) i =
      match (encoded cs)[i]? with
      | some b => !isContinuation b
      | none => i == (encoded cs).length := by
  cases i with
  | succ i => rfl
  | zero =>
    cases cs with
    | nil => rfl
    | cons c cs =>
      obtain ⟨b, bs, hc, hb, -⟩ := utf8EncodeChar_eq_cons c
      rw [encoded_cons, hc, List.cons_append, List.getElem?_cons_zero]
      simp [isBoundary, hb]

/-- Within a character there is no boundary, and after it there are those of the rest. -/
theorem isBoundary_encoded_cons (c : Char) (cs : List Char) {i : Nat} (hi : 0 < i) :
    isBoundary (encoded (c :: cs)) i =
      (decide (c.utf8Size ≤ i) && isBoundary (encoded cs) (i - c.utf8Size)) := by
  obtain ⟨b, bs, hc, -, hbs⟩ := utf8EncodeChar_eq_cons c
  have hsize := String.length_utf8EncodeChar c
  rw [isBoundary_encoded, isBoundary_encoded, length_encoded_cons, encoded_cons]
  by_cases hwithin : c.utf8Size ≤ i
  · rw [List.getElem?_append_right (hsize ▸ hwithin), hsize, decide_eq_true hwithin, Bool.true_and]
    cases (encoded cs)[i - c.utf8Size]? with
    | some x => rfl
    | none =>
      show (i == _) = (i - c.utf8Size == _)
      rw [Bool.eq_iff_iff, beq_iff_eq, beq_iff_eq]
      omega
  · rw [List.getElem?_append_left (by omega), decide_eq_false hwithin, Bool.false_and]
    obtain ⟨j, rfl⟩ : ∃ j, i = j + 1 := ⟨i - 1, by omega⟩
    have hj : j < bs.length := by
      rw [hc, List.length_cons] at hsize
      omega
    rw [hc, List.getElem?_cons_succ, List.getElem?_eq_getElem hj]
    simp [hbs _ (List.getElem_mem hj)]

/-- The boundaries are where leading characters end. -/
theorem isBoundary_encoded_iff {cs : List Char} {i : Nat} :
    isBoundary (encoded cs) i = true ↔ ∃ before after, cs = before ++ after ∧
      (encoded before).length = i := by
  induction cs generalizing i with
  | nil =>
    rw [isBoundary_encoded]
    show (i == 0) = true ↔ _
    rw [beq_iff_eq]
    constructor
    · rintro rfl
      exact ⟨[], [], rfl, rfl⟩
    · rintro ⟨before, after, hcs, rfl⟩
      rw [(List.append_eq_nil_iff.mp hcs.symm).1]
      rfl
  | cons c cs ih =>
    rcases Nat.eq_zero_or_pos i with rfl | hi
    · exact iff_of_true rfl ⟨[], c :: cs, rfl, rfl⟩
    · rw [isBoundary_encoded_cons c cs hi, Bool.and_eq_true, decide_eq_true_iff, ih]
      constructor
      · rintro ⟨hsize, before, after, rfl, hlength⟩
        refine ⟨c :: before, after, rfl, ?_⟩
        rw [length_encoded_cons, hlength]
        omega
      · rintro ⟨before, after, hcs, hlength⟩
        cases before with
        | nil =>
          rw [← hlength] at hi
          exact absurd hi (Nat.lt_irrefl 0)
        | cons d before =>
          obtain ⟨rfl, rfl⟩ := List.cons.inj hcs
          rw [length_encoded_cons] at hlength
          exact ⟨by omega, before, after, rfl, by omega⟩

/-- In the bytes of a text, the boundaries are the ends of its prefixes. -/
theorem isBoundary_utf8_iff {s : String} {i : Nat} :
    isBoundary (utf8 s) i = true ↔ ∃ q rest, s = q ++ rest ∧ q.utf8ByteSize = i := by
  rw [utf8_eq_flatMap]
  refine isBoundary_encoded_iff.trans ?_
  constructor
  · rintro ⟨before, after, hs, rfl⟩
    refine ⟨String.ofList before, String.ofList after, ?_, ?_⟩
    · rw [← String.toList_inj, hs]
      simp
    · rw [← length_utf8, utf8_eq_flatMap, String.toList_ofList]
      rfl
  · rintro ⟨q, rest, rfl, rfl⟩
    refine ⟨q.toList, rest.toList, String.toList_append, ?_⟩
    rw [← length_utf8, utf8_eq_flatMap]
    rfl

/-! ## The walk back -/

/-- The walk ends at the last boundary on its way. -/
theorem boundaryBefore_spec (bs : Bytes) (n : Nat) :
    boundaryBefore bs n ≤ n ∧ isBoundary bs (boundaryBefore bs n) = true ∧
      ∀ i ≤ n, isBoundary bs i = true → i ≤ boundaryBefore bs n := by
  induction n with
  | zero => exact ⟨Nat.le_refl 0, rfl, fun i hi _ => hi⟩
  | succ n ih =>
    obtain ⟨hle, hboundary, hlast⟩ := ih
    rw [boundaryBefore]
    by_cases h : isBoundary bs (n + 1) = true
    · rw [if_pos h]
      exact ⟨Nat.le_refl _, h, fun i hi _ => hi⟩
    · rw [if_neg h]
      refine ⟨Nat.le_succ_of_le hle, hboundary, fun i hi hb => ?_⟩
      rcases Nat.lt_or_eq_of_le hi with hi | rfl
      · exact hlast i (Nat.le_of_lt_succ hi) hb
      · exact absurd hb h

/-! ## The longest prefix -/

theorem exists_clipChars_append (max : Nat) (cs : List Char) :
    ∃ rest, cs = clipChars max cs ++ rest := by
  induction cs generalizing max with
  | nil => exact ⟨[], rfl⟩
  | cons c cs ih =>
    rw [clipChars]
    by_cases hc : c.utf8Size ≤ max
    · obtain ⟨rest, hrest⟩ := ih (max - c.utf8Size)
      rw [if_pos hc]
      exact ⟨rest, congrArg (c :: ·) hrest⟩
    · rw [if_neg hc]
      exact ⟨c :: cs, rfl⟩

theorem length_encoded_clipChars_le (max : Nat) (cs : List Char) :
    (encoded (clipChars max cs)).length ≤ max := by
  induction cs generalizing max with
  | nil => exact Nat.zero_le max
  | cons c cs ih =>
    rw [clipChars]
    by_cases hc : c.utf8Size ≤ max
    · have ih := ih (max - c.utf8Size)
      rw [if_pos hc, length_encoded_cons]
      omega
    · rw [if_neg hc]
      exact Nat.zero_le max

theorem exists_clipChars_eq_append {max : Nat} (before after : List Char)
    (h : (encoded before).length ≤ max) :
    ∃ rest, clipChars max (before ++ after) = before ++ rest := by
  induction before generalizing max with
  | nil => exact ⟨_, rfl⟩
  | cons c before ih =>
    rw [length_encoded_cons] at h
    obtain ⟨rest, hrest⟩ := @ih (max - c.utf8Size) (by omega)
    rw [List.cons_append, clipChars, if_pos (by omega), hrest]
    exact ⟨rest, rfl⟩

section

variable (max : Nat) (s : String)

theorem toList_clip : (clip max s).toList = clipChars max s.toList := by
  rw [clip, String.toList_ofList]

theorem exists_clip_append : ∃ rest, s = clip max s ++ rest := by
  obtain ⟨rest, hrest⟩ := exists_clipChars_append max s.toList
  refine ⟨String.ofList rest, ?_⟩
  rw [← String.toList_inj, String.toList_append, toList_clip, String.toList_ofList]
  exact hrest

theorem utf8ByteSize_clip_le : (clip max s).utf8ByteSize ≤ max := by
  rw [← length_utf8, utf8_eq_flatMap, toList_clip]
  exact length_encoded_clipChars_le max s.toList

variable {max s}

/-- A prefix that fits is a prefix of what is left. -/
theorem exists_clip_eq_append {q rest : String} (hs : s = q ++ rest) (h : q.utf8ByteSize ≤ max) :
    ∃ r, clip max s = q ++ r := by
  rw [← length_utf8, utf8_eq_flatMap] at h
  obtain ⟨r, hr⟩ := exists_clipChars_eq_append q.toList rest.toList h
  refine ⟨String.ofList r, ?_⟩
  rw [← String.toList_inj, toList_clip, hs, String.toList_append, hr]
  simp

/-- At most three bytes are wasted, as a character has no more than four. -/
theorem le_utf8ByteSize_clip (h : max < s.utf8ByteSize) :
    max ≤ (clip max s).utf8ByteSize + 3 := by
  obtain ⟨rest, hrest⟩ := exists_clip_append max s
  have hle := utf8ByteSize_clip_le max s
  cases hcs : rest.toList with
  | nil =>
    have hempty : rest = "" := String.toList_inj.mp hcs
    rw [hrest, hempty, String.append_empty] at h
    omega
  | cons c cs =>
    -- with its next character the prefix does not fit
    have hc : s = clip max s ++ String.singleton c ++ String.ofList cs := by
      refine hrest.trans ?_
      rw [String.append_assoc, ← String.toList_inj, String.toList_append, hcs]
      simp
    have hsize : (clip max s ++ String.singleton c).utf8ByteSize =
        (clip max s).utf8ByteSize + c.utf8Size := by
      rw [String.utf8ByteSize_append, String.utf8ByteSize_singleton]
    have hfour := c.utf8Size_le_four
    have hpos := c.utf8Size_pos
    refine Classical.byContradiction fun hgap => ?_
    have hfits : (clip max s ++ String.singleton c).utf8ByteSize ≤ max := by omega
    obtain ⟨r, hr⟩ := exists_clip_eq_append hc hfits
    have hlength := congrArg String.utf8ByteSize hr
    rw [String.utf8ByteSize_append, hsize] at hlength
    omega

end

/-! ## Texts cut off -/

/-- What is left of a text that takes more than `max` bytes. -/
structure Clipped (max : Nat) (s p : String) : Prop where
  exists_append : ∃ rest, s = p ++ rest
  le : p.utf8ByteSize ≤ max
  /-- No prefix that fits is longer. -/
  longest q rest : s = q ++ rest → q.utf8ByteSize ≤ max → ∃ r, p = q ++ r
  /-- It ends at a boundary, the last one that fits. -/
  isBoundary : isBoundary (utf8 s) p.utf8ByteSize = true
  le_of_isBoundary i : i ≤ max → Text.isBoundary (utf8 s) i = true → i ≤ p.utf8ByteSize
  wasted_le : max ≤ p.utf8ByteSize + 3
  /-- The walk back from the limit ends where it ends. -/
  walked : boundaryBefore (utf8 s) (min max (utf8 s).length) = p.utf8ByteSize
  /-- The bytes up to there are a text. -/
  sliced : ofUtf8? ((utf8 s).take (boundaryBefore (utf8 s) (min max (utf8 s).length))) = some p

theorem boundaryBefore_eq {max : Nat} {s : String} (h : max < s.utf8ByteSize) :
    boundaryBefore (utf8 s) (min max (utf8 s).length) = (clip max s).utf8ByteSize := by
  obtain ⟨rest, hrest⟩ := exists_clip_append max s
  have hmin : min max (utf8 s).length = max := by
    rw [length_utf8]
    omega
  obtain ⟨hle, hboundary, hlast⟩ := boundaryBefore_spec (utf8 s) max
  rw [hmin]
  apply Nat.le_antisymm
  · -- where the walk ends, a prefix ends, and that fits
    obtain ⟨q, after, hs, hq⟩ := isBoundary_utf8_iff.mp hboundary
    obtain ⟨r, hr⟩ := exists_clip_eq_append hs (hq ▸ hle)
    rw [hr, String.utf8ByteSize_append, hq]
    exact Nat.le_add_right _ _
  · exact hlast _ (utf8ByteSize_clip_le max s) (isBoundary_utf8_iff.mpr ⟨_, rest, hrest, rfl⟩)

theorem clipped {max : Nat} {s : String} (h : max < s.utf8ByteSize) :
    Clipped max s (clip max s) where
  exists_append := exists_clip_append max s
  le := utf8ByteSize_clip_le max s
  longest _ _ := exists_clip_eq_append
  isBoundary := by
    obtain ⟨rest, hrest⟩ := exists_clip_append max s
    exact isBoundary_utf8_iff.mpr ⟨_, rest, hrest, rfl⟩
  le_of_isBoundary i hi hboundary := by
    obtain ⟨q, rest, hs, rfl⟩ := isBoundary_utf8_iff.mp hboundary
    obtain ⟨r, hr⟩ := exists_clip_eq_append hs hi
    rw [hr, String.utf8ByteSize_append]
    exact Nat.le_add_right _ _
  wasted_le := le_utf8ByteSize_clip h
  walked := boundaryBefore_eq h
  sliced := by
    obtain ⟨rest, hrest⟩ := exists_clip_append max s
    have hbytes : utf8 s = utf8 (clip max s) ++ utf8 rest :=
      (congrArg utf8 hrest).trans (utf8_append _ _)
    rw [boundaryBefore_eq h, hbytes, ← length_utf8, List.take_left, ofUtf8?_utf8]

end Text

namespace TableSettings

/-- **A logged text is cut off only where it is too long**, and then it is the longest prefix that
fits, up to the last character boundary before the limit, and three dots. A higher limit leaves no
less. -/
theorem logged_clipped (settings : TableSettings) (s : String) :
    ((∀ max, settings.maxLogged = some max → s.utf8ByteSize ≤ max) → settings.logged s = s) ∧
    (∀ max, settings.maxLogged = some max → max < s.utf8ByteSize →
      settings.logged s = Text.clip max s ++ "..." ∧ Text.Clipped max s (Text.clip max s)) ∧
    ∀ max larger, max ≤ larger → ∃ r, Text.clip larger s = Text.clip max s ++ r := by
  refine ⟨fun h => ?_, fun max hmax h => ⟨?_, Text.clipped h⟩, fun max larger hle => ?_⟩
  · rw [logged]
    cases hmax : settings.maxLogged with
    | none => rfl
    | some max => exact if_pos (h max hmax)
  · rw [logged, hmax]
    exact if_neg (Nat.not_le.mpr h)
  · obtain ⟨rest, hrest⟩ := Text.exists_clip_append max s
    exact Text.exists_clip_eq_append hrest (Nat.le_trans (Text.utf8ByteSize_clip_le max s) hle)

/-- A limit within the second of three characters of two bytes. -/
def sampledLimit : TableSettings := { maxLogged := some 3 }

theorem logged_clipped_sampled :
    sampledLimit.maxLogged = some 3 ∧ 3 < "ééé".utf8ByteSize ∧
    sampledLimit.logged "ééé" = "é..." ∧
    Text.boundaryBefore (Text.utf8 "ééé") 3 = 2 ∧
    sampledLimit.logged "é!" = "é!" := by
  have hlong : 3 < "ééé".utf8ByteSize := by decide
  obtain ⟨-, hcut, -⟩ := logged_clipped sampledLimit "ééé"
  obtain ⟨hlogged, hclipped⟩ := hcut 3 rfl hlong
  obtain ⟨hwhole, -, -⟩ := logged_clipped sampledLimit "é!"
  refine ⟨rfl, hlong, hlogged.trans ?_, hclipped.walked.trans ?_, hwhole fun max hmax => ?_⟩
  · decide
  · decide
  · cases hmax
    decide

end TableSettings

end Tabular
