import MidiStorage.Eventide.Pedal
import MidiStorage.Proofs.Eventide.Retarget
import MidiStorage.Proofs.Framing.Grammar
import MidiStorage.Proofs.Text.Ascii
import MidiStorage.Proofs.Text.Numeral

namespace MidiStorage.Eventide

open Text

namespace Preset

def firstLine (p : Preset) : String := p.settings[0]

/-- Seven texts that a dump can carry, of which the first has a blank behind its tag. -/
structure Plain (p : Preset) : Prop where
  ascii : ∀ line ∈ p.lines, IsAscii line.toList
  unbroken : ∀ line ∈ p.lines, Unbroken line.toList
  noNul : ∀ line ∈ p.lines, '\x00' ∉ line.toList
  blank : ' ' ∈ p.firstLine.toList

instance (p : Preset) : Decidable p.Plain :=
  decidable_of_iff ((∀ line ∈ p.lines, IsAscii line.toList) ∧
    (∀ line ∈ p.lines, Unbroken line.toList) ∧ (∀ line ∈ p.lines, '\x00' ∉ line.toList) ∧
    ' ' ∈ p.firstLine.toList)
    ⟨fun ⟨a, b, c, d⟩ => ⟨a, b, c, d⟩, fun ⟨a, b, c, d⟩ => ⟨a, b, c, d⟩⟩

/-- Seven texts that are read back as they were written. -/
structure Legible (p : Preset) : Prop where
  unbroken : ∀ line ∈ p.lines, Unbroken line.toList
  noNul : ∀ line ∈ p.lines, '\x00' ∉ line.toList

theorem Plain.legible {p : Preset} (plain : p.Plain) : p.Legible := ⟨plain.unbroken, plain.noNul⟩

def text (p : Preset) : List Char := p.lines.flatMap fun line => line.toList ++ ['\r', '\n']

def withFirst (p : Preset) (line : String) : Preset := { p with settings := p.settings.set 0 line }

def tagged (id : Nat) (line : String) : String :=
  "[" ++ toString (id % 100 + 1) ++ "]" ++ String.ofList (line.toList.dropWhile (· ≠ ' '))

def inSlot (id : Nat) (p : Preset) : Preset := p.withFirst (tagged id p.firstLine)

theorem eq_lines (p : Preset) :
    ∃ a b c d e f name, p = ⟨#v[a, b, c, d, e, f], name⟩ ∧ p.lines = [a, b, c, d, e, f, name] := by
  obtain ⟨⟨⟨settings⟩, size⟩, name⟩ := p
  match settings, size with
  | [a, b, c, d, e, f], _ => exact ⟨a, b, c, d, e, f, name, rfl, rfl⟩

theorem lines_eq_cons (p : Preset) : p.lines = p.firstLine :: p.lines.tail := by
  obtain ⟨a, b, c, d, e, f, name, rfl, -⟩ := p.eq_lines
  rfl

theorem lines_withFirst (p : Preset) (line : String) :
    (p.withFirst line).lines = line :: p.lines.tail := by
  obtain ⟨a, b, c, d, e, f, name, rfl, -⟩ := p.eq_lines
  rfl

theorem ofLines_append (presets : List Preset) (rest : List String) :
    ofLines (presets.flatMap lines ++ rest) = presets ++ ofLines rest := by
  induction presets with
  | nil => rfl
  | cons p presets ih =>
    obtain ⟨a, b, c, d, e, f, name, rfl, same⟩ := p.eq_lines
    rw [List.flatMap_cons, same]
    simp only [List.cons_append, List.nil_append, ofLines, ih]

theorem encodeLines_eq (texts : List String) :
    encodeLines texts = Utf8.encode (texts.flatMap fun line => line.toList ++ ['\r', '\n']) := by
  have ends : [0x0D, 0x0A] = Utf8.encode ['\r', '\n'] := by decide
  unfold encodeLines
  rw [ends]
  induction texts with
  | nil => rfl
  | cons line texts ih =>
    rw [List.flatMap_cons, List.flatMap_cons, ih, ← Utf8.encode_append, ← Utf8.encode_append]

theorem isAscii_text_iff {p : Preset} : IsAscii p.text ↔ ∀ line ∈ p.lines, IsAscii line.toList := by
  constructor
  · intro ascii line inPreset c inLine
    exact ascii c (List.mem_flatMap.mpr ⟨line, inPreset, List.mem_append_left _ inLine⟩)
  · intro ascii c member
    obtain ⟨line, inPreset, inLine⟩ := List.mem_flatMap.mp member
    have ends : IsAscii ['\r', '\n'] := by decide
    exact (ascii line inPreset).append ends c inLine

theorem Plain.ascii_text {p : Preset} (plain : p.Plain) : IsAscii p.text :=
  isAscii_text_iff.mpr plain.ascii

theorem Legible.noNul_text {p : Preset} (legible : p.Legible) : '\x00' ∉ p.text := by
  intro member
  obtain ⟨line, inPreset, inLine⟩ := List.mem_flatMap.mp member
  rcases List.mem_append.mp inLine with inside | atEnd
  · exact legible.noNul line inPreset inside
  · exact absurd atEnd (by decide)

end Preset

theorem sysexEnd_not_mem_encode (cs : List Char) : Bytes.sysexEnd ∉ Utf8.encode cs := by
  intro member
  rcases Utf8.mem_encode member with ⟨c, -, ascii, isEnd⟩ | ⟨-, high⟩
  · have code := Utf8.toNat_byte ascii
    rw [← isEnd] at code
    change 0xF7 = c.toNat at code
    omega
  · exact absurd high (by decide)

theorem takeWhile_terminated {text : Bytes} (endless : Bytes.sysexEnd ∉ text) :
    (text ++ [0x00, Bytes.sysexEnd]).takeWhile (fun b => b ≠ 0 ∧ b ≠ Bytes.sysexEnd) =
      text.takeWhile (· ≠ 0) := by
  induction text with
  | nil => rfl
  | cons b text ih =>
    rw [List.mem_cons, not_or] at endless
    by_cases nul : b = 0
    · simp [nul]
    · have other : b ≠ 0 ∧ b ≠ Bytes.sysexEnd := ⟨nul, Ne.symm endless.1⟩
      rw [List.cons_append, List.takeWhile_cons, List.takeWhile_cons, if_pos (decide_eq_true other),
        if_pos (decide_eq_true nul), ih endless.2]

/-- The dump that a pedal sends or takes. -/
def dumpOf (device : UInt8) (presets : List Preset) : Bytes :=
  0xF0 :: 0x1C :: 0x70 :: device :: dumpCode ::
    presets.flatMap (fun p => Preset.encodeLines p.lines) ++ [0x00, Bytes.sysexEnd]

theorem toMessage_eq (p : Preset) : p.toMessage = dumpOf 0 [p] := by
  unfold Preset.toMessage dumpOf
  rw [List.flatMap_cons, List.flatMap_nil, List.append_nil]
  rfl

theorem dumpOf_eq (device : UInt8) (presets : List Preset) :
    dumpOf device presets = 0xF0 :: 0x1C :: 0x70 :: device :: dumpCode ::
      Utf8.encode (presets.flatMap Preset.text) ++ [0x00, Bytes.sysexEnd] := by
  have body : presets.flatMap (fun p => Preset.encodeLines p.lines) =
      Utf8.encode (presets.flatMap Preset.text) := by
    unfold Utf8.encode
    rw [List.flatMap_assoc]
    apply congrArg (presets.flatMap ·)
    funext p
    exact Preset.encodeLines_eq p.lines
  unfold dumpOf
  rw [body]

theorem dumpOf_singleton (device : UInt8) (p : Preset) :
    dumpOf device [p] = 0xF0 :: 0x1C :: 0x70 :: device :: 0x49 ::
      (Utf8.encode p.text ++ [0x00, Bytes.sysexEnd]) := by
  rw [dumpOf_eq, List.flatMap_cons, List.flatMap_nil, List.append_nil]
  rfl

theorem length_dumpOf (device : UInt8) (p : Preset) :
    (dumpOf device [p]).length = (Utf8.encode p.text).length + 7 := by
  rw [dumpOf_singleton]
  simp only [List.length_cons, List.length_append, List.length_nil]

theorem textAt_dumpOf (device : UInt8) (presets : List Preset) :
    textAt (dumpOf device presets) dumpOffset =
      (presets.flatMap Preset.text).takeWhile (· ≠ '\x00') := by
  have dropped : (dumpOf device presets).drop dumpOffset =
      Utf8.encode (presets.flatMap Preset.text) ++ [0x00, Bytes.sysexEnd] := by
    rw [dumpOf_eq]
    rfl
  have nul : (0 : UInt8) = Utf8.byte '\x00' := by decide
  unfold textAt
  rw [dropped, takeWhile_terminated (sysexEnd_not_mem_encode _), nul, Utf8.takeWhile_encode (by decide),
    Utf8.decode_encode]

section Dump

variable {device : UInt8} {presets : List Preset}

/-- A dump of legible presets is read back as it was written. -/
theorem ofDump_dumpOf (legible : ∀ p ∈ presets, p.Legible) :
    Preset.ofDump (dumpOf device presets) = presets := by
  have noNul : ∀ c ∈ presets.flatMap Preset.text, decide (c ≠ '\x00') = true := by
    intro c inText
    obtain ⟨p, inPresets, inPreset⟩ := List.mem_flatMap.mp inText
    rw [decide_eq_true_eq]
    rintro rfl
    exact (legible p inPresets).noNul_text inPreset
  have lines : presets.flatMap Preset.text =
      ((presets.flatMap Preset.lines).map String.toList).flatMap fun line => line ++ ['\r', '\n'] := by
    rw [List.flatMap_map, List.flatMap_assoc]
    rfl
  have unbroken : ∀ line ∈ (presets.flatMap Preset.lines).map String.toList, Unbroken line := by
    intro line member
    obtain ⟨line, inText, rfl⟩ := List.mem_map.mp member
    obtain ⟨p, inPresets, inPreset⟩ := List.mem_flatMap.mp inText
    exact (legible p inPresets).unbroken line inPreset
  unfold Preset.ofDump
  rw [textAt_dumpOf, List.takeWhile_eq_self_iff.mpr noNul, lines, lines_joined unbroken, List.map_append,
    List.map_map]
  have back : String.ofList ∘ String.toList = id := by
    funext line
    exact String.ofList_toList
  rw [back, List.map_id, Preset.ofLines_append]
  exact List.append_nil presets

theorem ofDump_single {p : Preset} (legible : p.Legible) : Preset.ofDump (dumpOf device [p]) = [p] := by
  apply ofDump_dumpOf
  intro q member
  rwa [List.mem_singleton.mp member]

theorem isMessage_dumpOf (number : device < 0x80) (ascii : ∀ p ∈ presets, IsAscii p.text) :
    (dumpOf device presets).IsMessage := by
  let text := Utf8.encode (presets.flatMap Preset.text)
  refine ⟨Bytes.sysexStart :: 0x1C :: 0x70 :: device :: dumpCode :: (text ++ [0x00]),
    ⟨_, rfl, ?_⟩, ?_⟩
  · have data : ∀ b ∈ text, Bytes.isData b = true := by
      intro b member
      have small : IsAscii (presets.flatMap Preset.text) := by
        intro c inText
        obtain ⟨p, inPresets, inPreset⟩ := List.mem_flatMap.mp inText
        exact ascii p inPresets c inPreset
      simp only [text, Utf8.encode_ascii small] at member
      obtain ⟨c, inText, rfl⟩ := List.mem_map.mp member
      apply decide_eq_true
      rw [UInt8.lt_iff_toNat_lt, Utf8.toNat_byte (small c inText)]
      exact small c inText
    intro b member
    simp only [List.mem_cons, List.mem_append, List.not_mem_nil, or_false] at member
    rcases member with rfl | rfl | rfl | rfl | inText | rfl
    · decide
    · decide
    · exact decide_eq_true number
    · decide
    · exact data b inText
    · decide
  · rw [dumpOf_eq]
    simp only [text, List.cons_append, List.append_assoc, List.nil_append]
    rfl

theorem isMessage_single (number : device < 0x80) {p : Preset} (ascii : IsAscii p.text) :
    (dumpOf device [p]).IsMessage := by
  apply isMessage_dumpOf number
  intro q only
  rwa [List.mem_singleton.mp only]

end Dump

section Slot

variable {p : Preset} {id : Nat}

def tagText (id : Nat) : List Char := ("[" ++ toString (id % 100 + 1) ++ "]").toList

theorem tagText_eq (id : Nat) : tagText id = '[' :: ((toString (id % 100 + 1)).toList ++ [']']) := by
  unfold tagText
  rw [String.toList_append, String.toList_append]
  rfl

theorem mem_tagText {c : Char} (member : c ∈ tagText id) : 0x30 ≤ c.toNat ∧ c.toNat < 0x80 := by
  rw [tagText_eq, List.mem_cons, List.mem_append, List.mem_singleton] at member
  rcases member with rfl | digit | rfl
  · decide
  · have bounds := Decimal.isDigit_iff.mp (Decimal.isDigit_of_mem digit)
    omega
  · decide

theorem length_tagText (id : Nat) : (tagText id).length ≤ 5 := by
  have small : id % 100 + 1 < 10 ^ 3 := by omega
  have digits : (toString (id % 100 + 1)).toList.length ≤ 3 := by
    rw [Decimal.toList_toString]
    exact (Nat.length_toDigits_le_iff (by decide) (by decide)).mpr small
  rw [tagText_eq, List.length_cons, List.length_append, List.length_singleton]
  omega

theorem slotTag_eq (id : Nat) : slotTag id = (tagText id).map Utf8.byte :=
  Utf8.encode_ascii fun _ member => (mem_tagText member).2

theorem mem_slotTag {id : Nat} {b : UInt8} (member : b ∈ slotTag id) :
    0x30 ≤ b.toNat ∧ b.toNat < 0x80 := by
  rw [slotTag_eq] at member
  obtain ⟨c, inText, rfl⟩ := List.mem_map.mp member
  have bounds := mem_tagText inText
  rwa [Utf8.toNat_byte bounds.2]

namespace Preset

def otherText (p : Preset) : List Char :=
  p.lines.tail.flatMap fun line => line.toList ++ ['\r', '\n']

theorem text_eq (p : Preset) : p.text = p.firstLine.toList ++ '\r' :: '\n' :: p.otherText := by
  unfold text otherText
  rw [lines_eq_cons, List.flatMap_cons, List.append_assoc]
  rfl

theorem text_withFirst (p : Preset) (line : String) :
    (p.withFirst line).text = line.toList ++ '\r' :: '\n' :: p.otherText := by
  unfold text otherText
  rw [lines_withFirst, List.flatMap_cons, List.append_assoc]
  rfl

theorem toList_tagged (id : Nat) (line : String) :
    (tagged id line).toList = tagText id ++ line.toList.dropWhile (· ≠ ' ') := by
  unfold tagged
  rw [String.toList_append, String.toList_ofList]
  rfl

theorem firstLine_inSlot (p : Preset) (id : Nat) :
    (p.inSlot id).firstLine = tagged id p.firstLine := by
  obtain ⟨a, b, c, d, e, f, name, rfl, -⟩ := p.eq_lines
  rfl

theorem unbroken_tag_append {line : List Char} (unbroken : Unbroken line) :
    ∀ {tag : List Char}, '\r' ∉ tag → Unbroken (tag ++ line) := by
  intro tag
  induction tag with
  | nil => exact fun _ => unbroken
  | cons c tag ih =>
    intro free broken
    rw [List.cons_append, List.infix_cons_iff] at broken
    rcases broken with front | later
    · rw [List.cons_prefix_cons] at front
      exact free (by rw [front.1]; exact List.mem_cons_self ..)
    · exact ih (fun member => free (List.mem_cons_of_mem _ member)) later

theorem dropWhile_blank {line : List Char} (blank : ' ' ∈ line) :
    ∃ rest, line.dropWhile (· ≠ ' ') = ' ' :: rest := by
  induction line with
  | nil => cases blank
  | cons c line ih =>
    rw [List.dropWhile_cons]
    by_cases first : c = ' '
    · subst first
      exact ⟨line, by simp⟩
    · have later : ' ' ∈ line := (List.mem_cons.mp blank).resolve_left (Ne.symm first)
      simp only [ne_eq, first, not_false_eq_true, decide_true, ↓reduceIte]
      exact ih later

theorem mem_lines_inSlot {line : String} (member : line ∈ (p.inSlot id).lines) :
    line = tagged id p.firstLine ∨ line ∈ p.lines := by
  have lines : (p.inSlot id).lines = tagged id p.firstLine :: p.lines.tail := lines_withFirst p _
  rw [lines, List.mem_cons] at member
  exact member.imp_right List.mem_of_mem_tail

theorem firstLine_mem_lines (p : Preset) : p.firstLine ∈ p.lines := by
  rw [lines_eq_cons]
  exact List.mem_cons_self ..

theorem Legible.inSlot (legible : p.Legible) (id : Nat) : (p.inSlot id).Legible := by
  have kept : p.firstLine.toList.dropWhile (· ≠ ' ') <:+ p.firstLine.toList :=
    List.dropWhile_suffix _
  constructor
  · intro line member
    rcases mem_lines_inSlot member with rfl | other
    · rw [toList_tagged]
      apply unbroken_tag_append ((legible.unbroken _ p.firstLine_mem_lines).within kept.isInfix)
      intro isReturn
      exact absurd (mem_tagText isReturn) (by decide)
    · exact legible.unbroken line other
  · intro line member
    rcases mem_lines_inSlot member with rfl | other
    · rw [toList_tagged, List.mem_append, not_or]
      constructor
      · intro isNul
        exact absurd (mem_tagText isNul) (by decide)
      · intro isNul
        exact legible.noNul _ p.firstLine_mem_lines (kept.subset isNul)
    · exact legible.noNul line other

theorem Plain.inSlot (plain : p.Plain) (id : Nat) : (p.inSlot id).Plain := by
  have legible := plain.legible.inSlot id
  refine ⟨?_, legible.unbroken, legible.noNul, ?_⟩
  · intro line member
    rcases mem_lines_inSlot member with rfl | other
    · rw [toList_tagged]
      have tag : IsAscii (tagText id) := fun c member => (mem_tagText member).2
      have kept : p.firstLine.toList.dropWhile (· ≠ ' ') <:+ p.firstLine.toList :=
        List.dropWhile_suffix _
      exact tag.append ((plain.ascii _ p.firstLine_mem_lines).of_subset kept.subset)
    · exact plain.ascii line other
  · rw [firstLine_inSlot, toList_tagged, List.mem_append]
    right
    obtain ⟨rest, fromBlank⟩ := dropWhile_blank plain.blank
    rw [fromBlank]
    exact List.mem_cons_self ..

end Preset

theorem length_inSlot (p : Preset) (id : Nat) :
    (Utf8.encode (p.inSlot id).text).length ≤ (Utf8.encode p.text).length + 5 := by
  have tag : (Utf8.encode (tagText id)).length ≤ 5 := by
    rw [Utf8.encode_ascii fun _ member => (mem_tagText member).2, List.length_map]
    exact length_tagText id
  have kept : (Utf8.encode (p.firstLine.toList.dropWhile (· ≠ ' '))).length ≤
      (Utf8.encode p.firstLine.toList).length := by
    rw [← Utf8.dropWhile_encode (by decide)]
    exact (List.dropWhile_sublist _).length_le
  unfold Preset.inSlot
  rw [Preset.text_withFirst, Preset.text_eq, Preset.toList_tagged]
  simp only [Utf8.encode_append, List.length_append]
  omega

theorem retarget_dumpOf {sender device : UInt8} (blank : ' ' ∈ p.firstLine.toList)
    (short : (dumpOf sender [p]).length ≤ maxLength) :
    retarget (dumpOf sender [p]) device id = .ok (dumpOf device [p.inSlot id]) := by
  obtain ⟨behind, fromBlank⟩ := Preset.dropWhile_blank blank
  have space : (0x20 : UInt8) = Utf8.byte ' ' := by decide
  have text : p.text.dropWhile (· ≠ ' ') =
      p.firstLine.toList.dropWhile (· ≠ ' ') ++ '\r' :: '\n' :: p.otherText := by
    rw [Preset.text_eq, List.dropWhile_append, fromBlank]
    rfl
  have inText : (0x20 : UInt8) ∈ Utf8.encode p.text := by
    rw [space, Utf8.byte_mem_encode (by decide), Preset.text_eq]
    exact List.mem_append_left _ blank
  have some : ¬ ((Utf8.encode p.text).dropWhile (· ≠ 0x20)).isEmpty = true := by
    rw [List.isEmpty_iff, dropWhile_eq_nil_iff, not_not]
    exact inText
  have body : (Utf8.encode p.text ++ [0x00, Bytes.sysexEnd]).dropWhile (· ≠ 0x20) =
      Utf8.encode (p.text.dropWhile (· ≠ ' ')) ++ [0x00, Bytes.sysexEnd] := by
    rw [List.dropWhile_append, if_neg some, space, Utf8.dropWhile_encode (by decide)]
  have long : minLength < (dumpOf sender [p]).length := by
    have nonempty : 0 < p.firstLine.toList.length := List.length_pos_of_mem blank
    have bytes := Utf8.length_le_encode p.text
    rw [Preset.text_eq, List.length_append, List.length_cons, List.length_cons, ← Preset.text_eq] at bytes
    rw [length_dumpOf]
    unfold minLength
    omega
  rw [retarget_ok_iff]
  refine ⟨long, short, sender, _, dumpOf_singleton sender p, List.mem_append_left _ inText, ?_⟩
  rw [body, text, dumpOf_singleton device (p.inSlot id)]
  unfold Preset.inSlot slotTag
  rw [Preset.text_withFirst, Preset.toList_tagged]
  simp only [Utf8.encode_append, List.append_assoc]
  rfl

theorem Pedal.refresh_dumpOf (pedal : Pedal) {bank : List Preset} {index : Nat} (device : UInt8)
    (kept : pedal.bank = some bank) (inside : index < bank.length) (legible : p.Legible) :
    pedal.refresh index (dumpOf device [p]) = { pedal with bank := some (bank.set index p) } := by
  unfold Pedal.refresh
  simp only [kept, ofDump_single legible, inside, ↓reduceIte]

theorem retarget_long {data : Bytes} {device : UInt8} (long : maxLength < data.length) :
    retarget data device id = .error (.badMessage ("bad preset length " ++ toString data.length)) := by
  unfold retarget
  simp only [long, true_or, ↓reduceIte]

end Slot

end MidiStorage.Eventide
