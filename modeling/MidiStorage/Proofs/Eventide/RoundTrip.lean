import MidiStorage.Proofs.Eventide.Framed
import MidiStorage.Proofs.Text.Decoding

namespace MidiStorage.Eventide

open Text

theorem nul_not_mem_textAt (message : Bytes) (offset : Nat) : '\x00' ∉ textAt message offset := by
  intro member
  have isByte := Utf8.byte_mem_of_mem_decode (by decide) member
  exact absurd (List.mem_takeWhile_imp isByte) (by decide)

theorem legible_of_mem_ofDump {message : Bytes} {p : Preset} (member : p ∈ Preset.ofDump message) :
    p.Legible := by
  have found {line : String} (inPreset : line ∈ p.lines) :
      line.toList ∈ lines (textAt message dumpOffset) := by
    obtain ⟨text, inText, rfl⟩ := List.mem_map.mp (Preset.mem_ofLines member line inPreset)
    rwa [String.toList_ofList]
  constructor
  · intro line inPreset
    exact (of_mem_lines (found inPreset)).2
  · intro line inPreset isNul
    exact nul_not_mem_textAt _ _ ((of_mem_lines (found inPreset)).1.subset isNul)

/-- The dump of presets, with any pedal's number, is read back as these presets exactly if no line
of them holds a NUL or a pair of CR and LF. In particular a preset is read back from its own
message. -/
theorem ofDump_eq_iff_legible (device : UInt8) (presets : List Preset) :
    (Preset.ofDump (dumpOf device presets) = presets ↔ ∀ p ∈ presets, p.Legible) ∧
      ∀ p : Preset, Preset.ofDump p.toMessage = [p] ↔ p.Legible := by
  have both (device : UInt8) (presets : List Preset) :
      Preset.ofDump (dumpOf device presets) = presets ↔ ∀ p ∈ presets, p.Legible := by
    constructor
    · intro same p member
      rw [← same] at member
      exact legible_of_mem_ofDump member
    · exact ofDump_dumpOf
  refine ⟨both device presets, ?_⟩
  intro p
  rw [toMessage_eq, both]
  exact List.forall_mem_singleton

example :
    let p : Preset := ⟨#v["[1] 0\r", "\n", "", "é", "\r\r", "日\n"], "\n\r"⟩
    Preset.ofDump p.toMessage = [p] := by
  decide +kernel

end MidiStorage.Eventide
