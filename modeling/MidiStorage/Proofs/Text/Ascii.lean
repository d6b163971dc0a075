import Mathlib.Data.List.TakeWhile
import Mathlib.Tactic.Common
import MidiStorage.Proofs.Text.Encoding
import MidiStorage.Proofs.Text.Lines

namespace MidiStorage.Text

def IsAscii (cs : List Char) : Prop := ∀ c ∈ cs, c.toNat < 0x80

def Unbroken (cs : List Char) : Prop := ¬ ['\r', '\n'] <:+: cs

instance (cs : List Char) : Decidable (IsAscii cs) := List.decidableBAll _ cs

instance (cs : List Char) : Decidable (Unbroken cs) := inferInstanceAs (Decidable (¬ _))

theorem IsAscii.append {left right : List Char} (leftAscii : IsAscii left)
    (rightAscii : IsAscii right) : IsAscii (left ++ right) := by
  intro c member
  rcases List.mem_append.mp member with inLeft | inRight
  · exact leftAscii c inLeft
  · exact rightAscii c inRight

theorem IsAscii.of_subset {part whole : List Char} (ascii : IsAscii whole) (subset : part ⊆ whole) :
    IsAscii part := fun c member => ascii c (subset member)

theorem Unbroken.within {part whole : List Char} (unbroken : Unbroken whole)
    (inside : part <:+: whole) : Unbroken part := fun broken => unbroken (broken.trans inside)

namespace Utf8

def byte (c : Char) : UInt8 := c.toNat.toUInt8

theorem toNat_byte {c : Char} (ascii : c.toNat < 0x80) : (byte c).toNat = c.toNat := by
  have small : c.toNat < 256 := by omega
  exact Nat.mod_eq_of_lt small

theorem byte_injective {c d : Char} (ascii : c.toNat < 0x80) (ascii' : d.toNat < 0x80)
    (same : byte c = byte d) : c = d := by
  have codes := congrArg UInt8.toNat same
  rw [toNat_byte ascii, toNat_byte ascii'] at codes
  rw [← Char.ofNat_toNat c, codes, Char.ofNat_toNat]

theorem encodeChar_ascii {c : Char} (ascii : c.toNat < 0x80) : encodeChar c = [byte c] := by
  unfold encodeChar
  simp only [ascii, ↓reduceIte]
  rfl

theorem encode_ascii {cs : List Char} (ascii : IsAscii cs) : encode cs = cs.map byte := by
  induction cs with
  | nil => rfl
  | cons c cs ih =>
    have first : c.toNat < 0x80 := ascii c (List.mem_cons_self ..)
    have rest : IsAscii cs := ascii.of_subset (List.subset_cons_self ..)
    unfold encode at ih ⊢
    rw [List.flatMap_cons, encodeChar_ascii first, ih rest, List.map_cons]
    rfl

theorem toNat_ofNat_of_valid {n : Nat} (valid : n.isValidChar) : (Char.ofNat n).toNat = n := by
  unfold Char.ofNat
  rw [dif_pos valid]
  rfl

theorem toNat_ofNat {n : Nat} (ascii : n < 0x80) : (Char.ofNat n).toNat = n :=
  toNat_ofNat_of_valid (Or.inl (Nat.lt_trans ascii (by decide)))

theorem byte_ofNat {b : UInt8} (ascii : b.toNat < 0x80) : byte (Char.ofNat b.toNat) = b := by
  unfold byte
  rw [toNat_ofNat ascii]
  exact UInt8.ofNat_toNat

theorem exists_ascii {bytes : List UInt8} (small : ∀ b ∈ bytes, b.toNat < 0x80) :
    ∃ cs, IsAscii cs ∧ encode cs = bytes := by
  have ascii : IsAscii (bytes.map fun b => Char.ofNat b.toNat) := by
    intro c member
    obtain ⟨b, inside, rfl⟩ := List.mem_map.mp member
    rw [toNat_ofNat (small b inside)]
    exact small b inside
  refine ⟨_, ascii, ?_⟩
  rw [encode_ascii ascii, List.map_map]
  conv_rhs => rw [← List.map_id bytes]
  apply List.map_congr_left
  intro b member
  exact byte_ofNat (small b member)

theorem mem_encode {cs : List Char} {b : UInt8} (member : b ∈ encode cs) :
    (∃ c ∈ cs, c.toNat < 0x80 ∧ b = byte c) ∨ 0x80 ≤ b.toNat ∧ b.toNat ≤ 0xF4 := by
  obtain ⟨c, inText, inside⟩ := List.mem_flatMap.mp member
  by_cases ascii : c.toNat < 0x80
  · rw [encodeChar_ascii ascii, List.mem_singleton] at inside
    exact Or.inl ⟨c, inText, ascii, inside⟩
  · obtain ⟨front, last, bytes, low, high, others⟩ := encodeChar_other (not_lt.mp ascii)
    rw [bytes, List.mem_append, List.mem_singleton] at inside
    rcases inside with early | rfl
    · exact Or.inr (others b early)
    · exact Or.inr ⟨low, by omega⟩

theorem byte_mem_encode {cs : List Char} {c : Char} (ascii : c.toNat < 0x80) :
    byte c ∈ encode cs ↔ c ∈ cs := by
  constructor
  · intro member
    rcases mem_encode member with ⟨d, inText, ascii', same⟩ | ⟨low, -⟩
    · rwa [byte_injective ascii ascii' same]
    · rw [toNat_byte ascii] at low
      omega
  · intro member
    refine List.mem_flatMap.mpr ⟨c, member, ?_⟩
    rw [encodeChar_ascii ascii]
    exact List.mem_singleton_self _

theorem dropWhile_encode {separator : Char} (ascii : separator.toNat < 0x80) (cs : List Char) :
    (encode cs).dropWhile (· ≠ byte separator) = encode (cs.dropWhile (· ≠ separator)) := by
  induction cs with
  | nil => rfl
  | cons c cs ih =>
    by_cases same : c = separator
    · subst same
      have first : encode (c :: cs) = byte c :: encode cs := by
        unfold encode
        rw [List.flatMap_cons, encodeChar_ascii ascii]
        rfl
      rw [List.dropWhile_cons_of_neg (by simp), first, List.dropWhile_cons_of_neg (by simp)]
    · have apart : ∀ b ∈ encode [c], decide (b ≠ byte separator) = true := by
        intro b member
        rw [decide_eq_true_eq]
        rintro rfl
        rw [byte_mem_encode ascii, List.mem_singleton] at member
        exact same member.symm
      rw [List.dropWhile_cons_of_pos (by simpa using same), ← ih, ← List.singleton_append,
        encode_append, List.dropWhile_append_of_pos apart]

theorem takeWhile_encode {separator : Char} (ascii : separator.toNat < 0x80) (cs : List Char) :
    (encode cs).takeWhile (· ≠ byte separator) = encode (cs.takeWhile (· ≠ separator)) := by
  have whole : encode (cs.takeWhile (· ≠ separator)) ++ encode (cs.dropWhile (· ≠ separator)) =
      encode cs := by
    rw [← encode_append, List.takeWhile_append_dropWhile]
  rw [← dropWhile_encode ascii] at whole
  exact List.append_cancel_right (List.takeWhile_append_dropWhile.trans whole.symm)

theorem encode_other {cs : List Char} (other : ¬ IsAscii cs) :
    ∃ front b back, encode cs = front ++ b :: back ∧ 0x80 ≤ b.toNat ∧ b.toNat < 0xC0 ∧
      ∀ c ∈ back, c.toNat < 0x80 := by
  induction cs with
  | nil => exact absurd (fun _ none => by cases none) other
  | cons c cs ih =>
    rw [← List.singleton_append, encode_append]
    by_cases rest : IsAscii cs
    · have beyond : 0x80 ≤ c.toNat := by
        by_contra small
        apply other
        intro d member
        rcases List.mem_cons.mp member with rfl | inside
        · omega
        · exact rest d inside
      obtain ⟨front, last, bytes, low, high, -⟩ := encodeChar_other beyond
      have first : encode [c] = front ++ [last] := by
        unfold encode
        rw [List.flatMap_singleton, bytes]
      refine ⟨front, last, encode cs, ?_, low, high, ?_⟩
      · rw [first, List.append_assoc, List.singleton_append]
      · intro b member
        rw [encode_ascii rest] at member
        obtain ⟨d, inText, rfl⟩ := List.mem_map.mp member
        rw [toNat_byte (rest d inText)]
        exact rest d inText
    · obtain ⟨front, b, back, bytes, low, high, small⟩ := ih rest
      exact ⟨encode [c] ++ front, b, back, by rw [bytes, List.append_assoc], low, high, small⟩

end Utf8

theorem lines_line {line : List Char} (unbroken : Unbroken line) (rest : List Char) :
    lines (line ++ '\r' :: '\n' :: rest) = line :: lines rest := by
  rw [lines_eq, lines_eq]
  exact linesAt_line (by decide) unbroken rest

theorem lines_joined {texts : List (List Char)} (unbroken : ∀ line ∈ texts, Unbroken line) :
    lines (texts.flatMap fun line => line ++ ['\r', '\n']) = texts ++ [[]] := by
  induction texts with
  | nil => rfl
  | cons line texts ih =>
    have first : Unbroken line := unbroken line (List.mem_cons_self ..)
    have rest : ∀ line ∈ texts, Unbroken line := fun line member =>
      unbroken line (List.mem_cons_of_mem _ member)
    rw [List.flatMap_cons, List.append_assoc, List.cons_append, List.cons_append, List.nil_append,
      lines_line first, ih rest, List.cons_append]

theorem of_mem_lines {cs line : List Char} (member : line ∈ lines cs) : line <:+: cs ∧ Unbroken line := by
  rw [lines_eq] at member
  exact of_mem_linesAt (by decide) member

end MidiStorage.Text
