import Mathlib.Tactic.Common
import Mathlib.Tactic.SplitIfs
import MidiStorage.Text.Utf8

namespace MidiStorage.Text.Utf8

theorem toNat_toUInt8 {n : Nat} (small : n < 256) : n.toUInt8.toNat = n := Nat.mod_eq_of_lt small

theorem decodeFrom_of_step {p next : Option Pending} {n : Nat} {cs : List Char} (small : n < 256)
    (taken : step p n = (cs, next)) (rest : List UInt8) :
    decodeFrom p (n.toUInt8 :: rest) = cs ++ decodeFrom next rest := by
  have unfolded : decodeFrom p (n.toUInt8 :: rest) =
      (step p n.toUInt8.toNat).1 ++ decodeFrom (step p n.toUInt8.toNat).2 rest := by
    cases p <;> rfl
  rw [unfolded, toNat_toUInt8 small, taken]

section Step

variable {bits missing low high b : Nat} (above : low ≤ b) (below : b ≤ high)

include above below

theorem step_more :
    step (some ⟨bits, missing + 2, low, high⟩) b =
      ([], some ⟨64 * bits + (b - 0x80), missing + 1, 0x80, 0xBF⟩) := by
  have more : missing + 2 ≠ 1 := by omega
  exact (if_pos ⟨above, below⟩).trans (if_neg more)

theorem step_last :
    step (some ⟨bits, 1, low, high⟩) b = ([Char.ofNat (64 * bits + (b - 0x80))], none) :=
  (if_pos ⟨above, below⟩).trans (if_pos rfl)

end Step

theorem begins_two {n : Nat} (low : 2 ≤ n) (high : n ≤ 31) :
    begins (0xC0 + n) = ([], some ⟨n, 1, 0x80, 0xBF⟩) := by
  unfold begins
  rw [if_neg (by omega), if_pos (by omega), Nat.add_sub_cancel_left]

theorem begins_three {n : Nat} (high : n ≤ 15) :
    begins (0xE0 + n) =
      ([], some ⟨n, 2, if n = 0 then 0xA0 else 0x80, if n = 13 then 0x9F else 0xBF⟩) := by
  have least : 0xE0 + n = 0xE0 ↔ n = 0 := by omega
  have surrogates : 0xE0 + n = 0xED ↔ n = 13 := by omega
  unfold begins
  rw [if_neg (by omega), if_neg (by omega), if_pos (by omega), Nat.add_sub_cancel_left]
  simp only [least, surrogates]

theorem begins_four {n : Nat} (high : n ≤ 4) :
    begins (0xF0 + n) =
      ([], some ⟨n, 3, if n = 0 then 0x90 else 0x80, if n = 4 then 0x8F else 0xBF⟩) := by
  have least : 0xF0 + n = 0xF0 ↔ n = 0 := by omega
  have greatest : 0xF0 + n = 0xF4 ↔ n = 4 := by omega
  unfold begins
  rw [if_neg (by omega), if_neg (by omega), if_neg (by omega), if_pos (by omega),
    Nat.add_sub_cancel_left]
  simp only [least, greatest]

theorem valid_toNat (c : Char) : c.toNat < 0xD800 ∨ 0xDFFF < c.toNat ∧ c.toNat < 0x110000 := c.valid

theorem decodeFrom_encodeChar (c : Char) (rest : List UInt8) :
    decodeFrom none (encodeChar c ++ rest) = c :: decodeFrom none rest := by
  have valid := valid_toNat c
  have back : Char.ofNat c.toNat = c := Char.ofNat_toNat c
  unfold encodeChar
  generalize c.toNat = n at valid back
  dsimp only
  split_ifs with one two three
  · have begun : step none n = ([Char.ofNat n], none) := if_pos one
    rw [List.cons_append, decodeFrom_of_step (by omega) begun, back]
    rfl
  · have begun : step none (0xC0 + n / 64) = _ := begins_two (by omega) (by omega)
    have whole : 64 * (n / 64) + (0x80 + n % 64 - 0x80) = n := by omega
    rw [List.cons_append, List.cons_append, decodeFrom_of_step (by omega) begun,
      decodeFrom_of_step (by omega) (step_last (by omega) (by omega)), whole, back]
    rfl
  · have begun : step none (0xE0 + n / 4096) = _ := begins_three (by omega)
    have low : (if n / 4096 = 0 then 0xA0 else 0x80) ≤ 0x80 + n / 64 % 64 := by
      split_ifs <;> omega
    have high : 0x80 + n / 64 % 64 ≤ (if n / 4096 = 13 then 0x9F else 0xBF) := by
      split_ifs <;> omega
    have whole : 64 * (64 * (n / 4096) + (0x80 + n / 64 % 64 - 0x80)) + (0x80 + n % 64 - 0x80) = n := by
      omega
    rw [List.cons_append, List.cons_append, List.cons_append, decodeFrom_of_step (by omega) begun,
      decodeFrom_of_step (by omega) (step_more low high),
      decodeFrom_of_step (by omega) (step_last (by omega) (by omega)), whole, back]
    rfl
  · have begun : step none (0xF0 + n / 262144) = _ := begins_four (by omega)
    have low : (if n / 262144 = 0 then 0x90 else 0x80) ≤ 0x80 + n / 4096 % 64 := by
      split_ifs <;> omega
    have high : 0x80 + n / 4096 % 64 ≤ (if n / 262144 = 4 then 0x8F else 0xBF) := by
      split_ifs <;> omega
    have whole : 64 * (64 * (64 * (n / 262144) + (0x80 + n / 4096 % 64 - 0x80)) +
        (0x80 + n / 64 % 64 - 0x80)) + (0x80 + n % 64 - 0x80) = n := by
      omega
    rw [List.cons_append, List.cons_append, List.cons_append, List.cons_append,
      decodeFrom_of_step (by omega) begun, decodeFrom_of_step (by omega) (step_more low high),
      decodeFrom_of_step (by omega) (step_more (by omega) (by omega)),
      decodeFrom_of_step (by omega) (step_last (by omega) (by omega)), whole, back]
    rfl

theorem encode_append (left right : List Char) : encode (left ++ right) = encode left ++ encode right :=
  List.flatMap_append

theorem length_le_encode (cs : List Char) : cs.length ≤ (encode cs).length := by
  have one (c : Char) : 1 ≤ (encodeChar c).length := by
    unfold encodeChar
    dsimp only
    split_ifs <;> exact Nat.le_add_left 1 _
  induction cs with
  | nil => exact Nat.le_refl 0
  | cons c cs ih =>
    have first := one c
    unfold encode at ih ⊢
    rw [List.flatMap_cons, List.length_append, List.length_cons]
    omega

theorem decode_encode_append (cs : List Char) (rest : List UInt8) :
    decode (encode cs ++ rest) = cs ++ decode rest := by
  unfold decode encode
  induction cs with
  | nil => rfl
  | cons c cs ih =>
    rw [List.flatMap_cons, List.append_assoc, decodeFrom_encodeChar, ih, List.cons_append]

theorem decode_encode (cs : List Char) : decode (encode cs) = cs := by
  have alone := decode_encode_append cs []
  rw [List.append_nil] at alone
  exact alone.trans (List.append_nil cs)

theorem encodeChar_other {c : Char} (other : 0x80 ≤ c.toNat) :
    ∃ front last, encodeChar c = front ++ [last] ∧ 0x80 ≤ last.toNat ∧ last.toNat < 0xC0 ∧
      ∀ b ∈ front, 0x80 ≤ b.toNat ∧ b.toNat ≤ 0xF4 := by
  have valid := valid_toNat c
  have last : (0x80 + c.toNat % 64).toUInt8.toNat = 0x80 + c.toNat % 64 := toNat_toUInt8 (by omega)
  unfold encodeChar
  dsimp only
  split_ifs with one two three
  · omega
  · refine ⟨[(0xC0 + c.toNat / 64).toUInt8], _, rfl, by omega, by omega, ?_⟩
    intro b member
    rw [List.mem_singleton.mp member, toNat_toUInt8 (by omega)]
    omega
  · refine ⟨[(0xE0 + c.toNat / 4096).toUInt8, (0x80 + c.toNat / 64 % 64).toUInt8], _, rfl,
      by omega, by omega, ?_⟩
    intro b member
    simp only [List.mem_cons, List.not_mem_nil, or_false] at member
    rcases member with rfl | rfl
    · rw [toNat_toUInt8 (by omega)]
      omega
    · rw [toNat_toUInt8 (by omega)]
      omega
  · refine ⟨[(0xF0 + c.toNat / 262144).toUInt8, (0x80 + c.toNat / 4096 % 64).toUInt8,
      (0x80 + c.toNat / 64 % 64).toUInt8], _, rfl, by omega, by omega, ?_⟩
    intro b member
    simp only [List.mem_cons, List.not_mem_nil, or_false] at member
    rcases member with rfl | rfl | rfl
    · rw [toNat_toUInt8 (by omega)]
      omega
    · rw [toNat_toUInt8 (by omega)]
      omega
    · rw [toNat_toUInt8 (by omega)]
      omega

end MidiStorage.Text.Utf8
