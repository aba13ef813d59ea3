/-!
# Text as bytes

The UTF-8 form of a text and the two's complement words that binary column formats are made of.

- `utf8`, `ofUtf8?`: a text and its bytes; each reads back what the other gives (`ofUtf8?_utf8`,
  `utf8_of_ofUtf8?`).
- `bigEndian w n`: `n` modulo `256 ^ w` in `w` bytes, most significant first.
- `readSigned`: the signed number that such bytes denote.
-/

namespace Tabular

/-- A run of bytes. -/
abbrev Bytes := List UInt8

namespace Text

/-- The UTF-8 bytes of a text. -/
def utf8 (s : String) : Bytes := s.toUTF8.data.toList

theorem utf8_eq_flatMap (s : String) : utf8 s = s.toList.flatMap String.utf8EncodeChar := by
  rw [utf8, String.toUTF8_eq_toByteArray, ← String.utf8Encode_toList, List.utf8Encode]
  simp

/-- The text that valid UTF-8 bytes denote. -/
def ofUtf8? (bs : Bytes) : Option String := String.fromUTF8? ⟨bs.toArray⟩

theorem ofUtf8?_utf8 (s : String) : ofUtf8? (utf8 s) = some s := by
  have hv : (⟨s.toByteArray.data.toList.toArray⟩ : ByteArray) = s.toByteArray := by
    rw [Array.toArray_toList]
  simp only [ofUtf8?, utf8, String.toUTF8_eq_toByteArray, hv, String.fromUTF8?,
    dif_pos s.isValidUTF8]
  rfl

theorem utf8_of_ofUtf8? {bs : Bytes} {s : String} (h : ofUtf8? bs = some s) : utf8 s = bs := by
  unfold ofUtf8? String.fromUTF8? at h
  split at h
  · cases h
    rfl
  · contradiction

/-- The last `w` bytes of `n`, most significant first. -/
def bigEndianNat : Nat → Nat → Bytes
  | 0, _ => []
  | w + 1, n => bigEndianNat w (n / 256) ++ [UInt8.ofNat (n % 256)]

/-- The number that bytes denote, most significant first. -/
def readNat (bs : Bytes) : Nat := bs.foldl (fun n b => 256 * n + b.toNat) 0

/-- An integer modulo `256 ^ w` in `w` bytes: two's complement for integers in range. -/
def bigEndian (w : Nat) (n : Int) : Bytes := bigEndianNat w (n % Nat.pow 256 w).toNat

/-- The two's complement integer that bytes denote. -/
def readSigned (bs : Bytes) : Int := Int.bmod (readNat bs) (Nat.pow 256 bs.length)

@[simp] theorem length_bigEndianNat (w n : Nat) : (bigEndianNat w n).length = w := by
  induction w generalizing n with
  | zero => rfl
  | succ w ih => simp [bigEndianNat, ih]

@[simp] theorem length_bigEndian (w : Nat) (n : Int) : (bigEndian w n).length = w := by
  simp [bigEndian]

theorem readNat_append_singleton (bs : Bytes) (b : UInt8) :
    readNat (bs ++ [b]) = 256 * readNat bs + b.toNat := by
  simp [readNat]

theorem readNat_bigEndianNat {w n : Nat} (h : n < Nat.pow 256 w) :
    readNat (bigEndianNat w n) = n := by
  induction w generalizing n with
  | zero =>
    have : n = 0 := by simpa using h
    simp [this, bigEndianNat, readNat]
  | succ w ih =>
    have hd : n / 256 < Nat.pow 256 w := (Nat.div_lt_iff_lt_mul (by decide)).2 h
    rw [bigEndianNat, readNat_append_singleton, ih hd, UInt8.toNat_ofNat']
    omega

end Text

end Tabular
