import Tabular.Proofs.OrderedMap.Contents
import Tabular.Record

/-!
# Reading what a store keeps

No value of a store fails to be read, so that records and lists of records are read value by value.

- `Value.decode_text_eq_timestamp_iff`, `Value.decode_text_of_ne`: a text is read as the instant
  that it denotes, or else as itself.
- `Record.decode_eq`, `Record.mapM_decode`: **reading rows never fails** and reads every value.
-/

namespace Tabular

namespace Value

/-- A text is read as the instant that it denotes. -/
theorem decode_text_eq_timestamp_iff {s : String} {t : Instant} :
    (text s).decode = .ok (timestamp t) ↔ Instant.parse s = .ok t := by
  rw [decode_eq, decoded]
  cases Instant.parse s with
  | ok u => simp
  | error fault => simp

/-- A text that denotes no instant is read as itself. -/
theorem decode_text_of_ne {s : String} (h : ∀ t, Instant.parse s ≠ .ok t) :
    (text s).decode = .ok (text s) := by
  rw [decode_eq, decoded]
  cases hparse : Instant.parse s with
  | ok t => exact absurd hparse (h t)
  | error fault => rfl

end Value

namespace Record

theorem decode_eq (r : Record) : r.decode = .ok r.decoded := by
  refine OrderedMap.tryMap_eq_ok_iff.mpr (List.forall₂_map_right_iff.mpr ?_)
  exact List.forall₂_same.mpr fun entry _ => ⟨rfl, entry.2.decode_eq⟩

theorem mapM_decode (rows : List Record) : rows.mapM decode = .ok (rows.map decoded) := by
  refine mapM_eq_ok_iff.mpr (List.forall₂_map_right_iff.mpr ?_)
  exact List.forall₂_same.mpr fun r _ => r.decode_eq

end Record

end Tabular
