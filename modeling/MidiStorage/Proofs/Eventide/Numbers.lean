import MidiStorage.Proofs.Eventide.Dump
import MidiStorage.Proofs.Text.Decoding
import MidiStorage.Proofs.Text.Integer

namespace MidiStorage.Eventide

open Text

/-- The bytes from the offset up to the first NUL or end mark, or up to the end of the message. -/
structure TextBytes (message : Bytes) (offset : Nat) (body : Bytes) : Prop where
  inside : ∀ b ∈ body, b ≠ 0 ∧ b ≠ Bytes.sysexEnd
  followed : ∃ rest, message.drop offset = body ++ rest ∧ ∀ b ∈ rest.head?, b = 0 ∨ b = Bytes.sysexEnd

section Text

variable {message : Bytes} {offset : Nat}

theorem TextBytes.textAt_eq {body : Bytes} (bytes : TextBytes message offset body) :
    textAt message offset = Utf8.decode body := by
  obtain ⟨inside, rest, carried, ends⟩ := bytes
  have kept : ∀ b ∈ body, decide (b ≠ 0 ∧ b ≠ Bytes.sysexEnd) = true := fun b member =>
    decide_eq_true (inside b member)
  have stops : ∀ b ∈ rest.head?, decide (b ≠ 0 ∧ b ≠ Bytes.sysexEnd) = false := by
    intro b first
    rw [decide_eq_false_iff_not]
    intro other
    exact (ends b first).elim other.1 other.2
  rw [textAt, carried, (span_append kept stops).1]

theorem textAt_of_encode {text : List Char} {rest : Bytes} (noNul : '\x00' ∉ text)
    (carried : message.drop offset = Utf8.encode text ++ rest) :
    textAt message offset =
      text ++ Utf8.decode (rest.takeWhile fun b => b ≠ 0 ∧ b ≠ Bytes.sysexEnd) := by
  have kept : ∀ b ∈ Utf8.encode text, decide (b ≠ 0 ∧ b ≠ Bytes.sysexEnd) = true := by
    intro b member
    refine decide_eq_true ⟨?_, ?_⟩
    · rintro rfl
      exact noNul ((Utf8.byte_mem_encode (by decide)).mp member)
    · rintro rfl
      exact sysexEnd_not_mem_encode text member
  rw [textAt, carried, List.takeWhile_append_of_pos kept, Utf8.decode_encode_append]

theorem textAt_of_length_le (short : message.length ≤ offset) : textAt message offset = [] := by
  rw [textAt, List.drop_eq_nil_of_le short]
  rfl

end Text

theorem head?_decode_takeWhile {rest : Bytes} (ends : ∀ b ∈ rest.head?, ¬ (0x30 ≤ b ∧ b ≤ 0x39))
    (p : UInt8 → Bool) : ∀ c ∈ (Utf8.decode (rest.takeWhile p)).head?, Decimal.isDigit c = false := by
  intro c first
  by_contra digit
  rw [Bool.not_eq_false, Decimal.isDigit_iff] at digit
  have ascii : c.toNat < 0x80 := by omega
  have head := Utf8.head?_of_head?_decode ascii first
  obtain ⟨behind, taken⟩ := List.head?_eq_some_iff.mp head
  have front : rest.head? = some (Utf8.byte c) := by
    rw [← List.takeWhile_append_dropWhile (p := p) (l := rest), taken]
    rfl
  apply ends _ front
  rw [UInt8.le_iff_toNat_le, UInt8.le_iff_toNat_le, Utf8.toNat_byte ascii]
  exact digit

theorem numberAt_of_written {message rest : Bytes} {offset : Nat} {blanks text : List Char} {n : Int}
    (skipped : ∀ c ∈ blanks, isBlank c = true) (written : Decimal.Written n text)
    (ends : ∀ b ∈ rest.head?, ¬ (0x30 ≤ b ∧ b ≤ 0x39))
    (carried : message.drop offset = Utf8.encode (blanks ++ text) ++ rest) :
    numberAt message offset = if n.natAbs < 0x8000000000000000 then n else 0 := by
  -- nothing up to the last digit ends the text
  have noNul : '\x00' ∉ blanks ++ text := by
    rw [List.mem_append, not_or]
    constructor
    · intro member
      exact absurd (skipped _ member) (by decide)
    · intro member
      exact absurd (written.shown _ member) (by decide)
  have read := Decimal.integer_of_written skipped written (fun _ => Decimal.isBlank_of_shown)
    (head?_decode_takeWhile ends fun b => b ≠ 0 ∧ b ≠ Bytes.sysexEnd)
  rw [numberAt, Decimal.leading_eq, textAt_of_encode noNul carried, List.append_assoc, read]

theorem numberAt_of_not_numbered {message : Bytes} {offset : Nat}
    (numberless : ¬ Decimal.Numbered isBlank (textAt message offset)) : numberAt message offset = 0 := by
  rw [numberAt, Decimal.leading_eq, Decimal.integer_of_not_numbered numberless]
  rfl

/-- The number at an offset is read from its decimal, whatever blanks stand before it, with zeros
before its digits and a plus sign or without them, and whatever follows but a digit. It is zero if
the text at the offset has no digit behind blanks and at most one sign, and if there is no text at
the offset. -/
theorem numberAt_leading (message : Bytes) (offset : Nat) :
    (∀ (n : Int) (blanks text : List Char) (rest : Bytes), n.natAbs ≤ 2 ^ 63 - 1 →
      (∀ c ∈ blanks, isBlank c = true) → Decimal.Written n text →
      (∀ b ∈ rest.head?, ¬ (0x30 ≤ b ∧ b ≤ 0x39)) →
      message.drop offset = Utf8.encode (blanks ++ text) ++ rest → numberAt message offset = n) ∧
    (∀ body, TextBytes message offset body → ¬ Decimal.Numbered isBlank (Utf8.decode body) →
      numberAt message offset = 0) ∧
    (message.length ≤ offset → numberAt message offset = 0) := by
  refine ⟨?_, ?_, ?_⟩
  · intro n blanks text rest small skipped written ends carried
    rw [numberAt_of_written skipped written ends carried, if_pos (by omega)]
  · intro body bytes numberless
    rw [← bytes.textAt_eq] at numberless
    exact numberAt_of_not_numbered numberless
  · intro short
    apply numberAt_of_not_numbered
    rw [textAt_of_length_le short]
    exact Decimal.not_numbered_nil

/-- The least integer that is read, with blanks and zeros before it and a digit behind the NUL. A
second sign is no number, and a message can be too short for one. -/
theorem numberAt_leading_least :
    let blanks := "\t\r\n ".toList
    let text := "-009223372036854775807".toList
    let least := header ++ Utf8.encode "1020A".toList ++ Utf8.encode (blanks ++ text) ++ [0x00, 0x35, 0xF7]
    let signs := header ++ Utf8.encode "1020A".toList ++ [0x2B, 0x2D, 0x35, 0xF7]
    ((∀ c ∈ blanks, isBlank c = true) ∧ Decimal.Written (-9223372036854775807) text ∧
      numberAt least numberOffset = -9223372036854775807) ∧
    (TextBytes signs numberOffset [0x2B, 0x2D, 0x35] ∧
      ¬ Decimal.Numbered isBlank (Utf8.decode [0x2B, 0x2D, 0x35]) ∧ numberAt signs numberOffset = 0) ∧
    numberAt [0xF0, 0xF7] numberOffset = 0 := by
  intro blanks text least signs
  refine ⟨?_, ?_, (numberAt_leading [0xF0, 0xF7] numberOffset).2.2 (by decide)⟩
  · have skipped : ∀ c ∈ blanks, isBlank c = true := List.all_eq_true.mp (by decide)
    have written : Decimal.Written (-9223372036854775807) text := by
      have same : text = ['-'] ++ (List.replicate 2 '0' ++ (toString 9223372036854775807).toList) := by
        decide +kernel
      rw [same]
      exact .intro .minus 2 9223372036854775807
    have carried : least.drop numberOffset = Utf8.encode (blanks ++ text) ++ [0x00, 0x35, 0xF7] := by
      decide +kernel
    have ends : ∀ b ∈ ([0x00, 0x35, 0xF7] : Bytes).head?, ¬ (0x30 ≤ b ∧ b ≤ 0x39) := by
      intro b first
      cases first
      decide
    obtain ⟨read, -, -⟩ := numberAt_leading least numberOffset
    exact ⟨skipped, written, read _ blanks text _ (by decide) skipped written ends carried⟩
  · have bytes : TextBytes signs numberOffset [0x2B, 0x2D, 0x35] := by
      refine ⟨by simp [Bytes.sysexEnd], [0xF7], by decide, ?_⟩
      intro b first
      cases first
      exact .inr rfl
    have numberless : ¬ Decimal.Numbered isBlank (Utf8.decode [0x2B, 0x2D, 0x35]) := by
      have decoded : Utf8.decode [0x2B, 0x2D, 0x35] = ['+', '-', '5'] := by decide
      rw [decoded]
      exact Decimal.not_numbered_of_signs (fun _ => Decimal.isBlank_of_shown) (.inr rfl) (.inl rfl) ['5']
    obtain ⟨-, none, -⟩ := numberAt_leading signs numberOffset
    exact ⟨bytes, numberless, none _ bytes numberless⟩

end MidiStorage.Eventide
