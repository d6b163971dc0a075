import MidiStorage.Proofs.Text.Encoding

namespace MidiStorage.Text.Utf8

theorem toUInt8_lt_iff {m n : Nat} (left : m < 256) (right : n < 256) :
    m.toUInt8 < n.toUInt8 ↔ m < n := by
  rw [UInt8.lt_iff_toNat_lt, toNat_toUInt8 left, toNat_toUInt8 right]

theorem toUInt8_eq_iff {m n : Nat} (left : m < 256) (right : n < 256) :
    m.toUInt8 = n.toUInt8 ↔ m = n := by
  rw [← UInt8.toNat_inj, toNat_toUInt8 left, toNat_toUInt8 right]

theorem encodeChar_append_lt {c d : Char} (lt : c < d) (xs ys : List UInt8) :
    encodeChar c ++ xs < encodeChar d ++ ys := by
  have validC := valid_toNat c
  have validD := valid_toNat d
  have lt' : c.toNat < d.toNat := lt
  unfold encodeChar
  generalize c.toNat = m at validC lt'
  generalize d.toNat = n at validD lt'
  dsimp only
  -- By the lengths of both. The one with fewer bytes begins with a smaller byte.
  split_ifs
  all_goals try omega
  all_goals simp (disch := omega) only [List.cons_append, List.nil_append, List.cons_lt_cons_iff,
    toUInt8_lt_iff, toUInt8_eq_iff]
  all_goals omega

theorem encode_lt_encode {a b : List Char} (lt : a < b) : encode a < encode b := by
  induction lt with
  | nil =>
    rename_i c cs
    cases bytes : encode (c :: cs) with
    | nil =>
      have some := length_le_encode (c :: cs)
      rw [bytes] at some
      exact absurd some (by simp)
    | cons b bs => exact List.nil_lt_cons b bs
  | rel lt => exact encodeChar_append_lt lt _ _
  | cons _ ih => exact List.append_left_lt ih

/-- Texts are in order exactly if their bytes are. -/
theorem string_le_iff {s t : String} : s ≤ t ↔ encode s.toList ≤ encode t.toList := by
  constructor
  · intro le
    by_cases same : s = t
    · rw [same]
      exact Std.le_refl _
    · have lt : s < t := Std.lt_of_le_of_ne le same
      exact Std.le_of_lt (encode_lt_encode lt)
  · intro le
    rw [← String.not_lt]
    exact fun lt => List.not_lt.mpr le (encode_lt_encode lt)

end MidiStorage.Text.Utf8
