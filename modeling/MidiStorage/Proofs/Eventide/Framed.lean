import MidiStorage.Proofs.Eventide.Dump
import MidiStorage.Proofs.Eventide.Storing
import MidiStorage.Proofs.Transfer.Replies

namespace MidiStorage.Eventide

open Text

theorem encode_textAt {message : Bytes} (whole : message.IsMessage) {offset : Nat} (behind : 0 < offset) :
    IsAscii (textAt message offset) ∧ Utf8.encode (textAt message offset) =
      (message.drop offset).takeWhile fun b => b ≠ 0 ∧ b ≠ Bytes.sysexEnd := by
  obtain ⟨opening, ⟨body, rfl, data⟩, rfl⟩ := whole
  have kept : ∀ b ∈ ((Bytes.sysexStart :: body ++ [Bytes.sysexEnd]).drop offset).takeWhile
      (fun b => b ≠ 0 ∧ b ≠ Bytes.sysexEnd), b.toNat < 0x80 := by
    intro b member
    have passed : b ≠ 0 ∧ b ≠ Bytes.sysexEnd := by simpa using List.mem_takeWhile_imp member
    have inside := (List.takeWhile_sublist _).subset member
    obtain ⟨offset, rfl⟩ := Nat.exists_eq_add_one.mpr behind
    rw [List.cons_append, List.drop_succ_cons] at inside
    have inBody := List.mem_of_mem_drop inside
    simp only [List.mem_append, List.mem_singleton, passed.2, or_false] at inBody
    exact UInt8.lt_iff_toNat_lt.mp (of_decide_eq_true (data b inBody))
  obtain ⟨cs, ascii, bytes⟩ := Utf8.exists_ascii kept
  unfold textAt
  rw [← bytes, Utf8.decode_encode]
  exact ⟨ascii, rfl⟩

theorem textAt_message {message : Bytes} (whole : message.IsMessage) {offset : Nat} (behind : 0 < offset) :
    IsAscii (textAt message offset) ∧ '\x00' ∉ textAt message offset := by
  obtain ⟨ascii, bytes⟩ := encode_textAt whole behind
  refine ⟨ascii, ?_⟩
  intro isNul
  have zero : Utf8.byte '\x00' ∈ Utf8.encode (textAt message offset) :=
    (Utf8.byte_mem_encode (by decide)).mpr isNul
  rw [bytes] at zero
  have passed := List.mem_takeWhile_imp zero
  exact absurd passed (by decide)

namespace Preset

variable {p : Preset}

/-- One of the presets of a dump that came as a whole message. -/
def Framed (p : Preset) : Prop := ∃ dump, Bytes.IsMessage dump ∧ p ∈ ofDump dump

theorem mem_ofLines {texts : List String} (member : p ∈ ofLines texts) :
    ∀ line ∈ p.lines, line ∈ texts := by
  fun_induction ofLines texts with
  | case1 a b c d e f name rest ih =>
    rcases List.mem_cons.mp member with rfl | later
    · intro line inPreset
      change line ∈ [a, b, c, d, e, f, name] at inPreset
      exact List.mem_append_left rest inPreset
    · intro line inPreset
      exact List.mem_append_right [a, b, c, d, e, f, name] (ih later line inPreset)
  | case2 => cases member

theorem Framed.line (framed : p.Framed) {line : String} (inPreset : line ∈ p.lines) :
    IsAscii line.toList ∧ Unbroken line.toList ∧ '\x00' ∉ line.toList := by
  obtain ⟨dump, whole, member⟩ := framed
  obtain ⟨text, inText, rfl⟩ := List.mem_map.mp (mem_ofLines member line inPreset)
  obtain ⟨inside, unbroken⟩ := of_mem_lines inText
  have behind : 0 < dumpOffset := by decide
  obtain ⟨ascii, noNul⟩ := textAt_message whole behind
  rw [String.toList_ofList]
  exact ⟨ascii.of_subset inside.subset, unbroken, fun isNul => noNul (inside.subset isNul)⟩

theorem Framed.plain (framed : p.Framed) (blank : ' ' ∈ p.firstLine.toList) : p.Plain where
  ascii _ inPreset := (framed.line inPreset).1
  unbroken _ inPreset := (framed.line inPreset).2.1
  noNul _ inPreset := (framed.line inPreset).2.2
  blank := blank

theorem Plain.framed (plain : p.Plain) : p.Framed := by
  refine ⟨dumpOf 0 [p], isMessage_single (by decide) plain.ascii_text, ?_⟩
  rw [ofDump_single plain.legible]
  exact List.mem_singleton_self p

end Preset

namespace Presets

variable {P : Type} [Port P] {d d' : Device P} {p : Pedal} {watched : Bool}

theorem bulkRead_framed {bank : List Preset} (clean : d.link.framer.Clean)
    (read : bulkRead p watched d = .ok bank d') : ∀ q ∈ bank, q.Framed := by
  rw [bulkRead, Action.bind_eq_ok] at read
  obtain ⟨dump, d₁, exchanged, kept⟩ := read
  cases kept
  cases inner : Link.withTransfer
      { raw := bulkRequest, timeout := bulkTimeout, cacheable := false, watched }
      Exchange.perform d.link with
  | error e l =>
    rw [Device.onLink_of_error inner] at exchanged
    cases exchanged
  | ok reply l =>
    rw [Device.onLink_of_ok inner] at exchanged
    cases exchanged
    obtain ⟨l₁, sent, heard⟩ := Link.exchange_uncached_ok rfl inner
    have writing (bytes : Bytes) : Action.Preserves (fun l : Link P => l.framer.Clean)
      (Link.writeOnce bytes) := fun _ before => before
    have clean₁ := (Exchange.sendSlices_preserves writing _ _).of_ok clean sent
    have whole := Exchange.collect_message rfl clean₁ heard
    exact fun q member => ⟨_, whole, member⟩

theorem read_framed {path : String} {preset : Preset}
    (framed : ∀ bank, p.bank = some bank → ∀ q ∈ bank, q.Framed)
    (clean : p.bank = none → d.link.framer.Clean)
    (found : read p path watched d = .ok preset d') : preset.Framed := by
  obtain ⟨id, index, bank, -, -, slot, source⟩ := read_source found
  have member : preset ∈ bank := List.mem_of_getElem? slot
  rcases source with ⟨kept, -⟩ | ⟨unread, banked⟩
  · exact framed bank kept preset member
  · exact bulkRead_framed (clean unread) banked preset member

end Presets

end MidiStorage.Eventide
