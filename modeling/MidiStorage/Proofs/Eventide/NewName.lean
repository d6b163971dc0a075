import MidiStorage.Proofs.Eventide.Framed
import MidiStorage.Proofs.Eventide.Renaming
import MidiStorage.Proofs.Eventide.SingleMessage

namespace MidiStorage.Eventide

open MidiStorage.Action Text

section Heard

variable {device : UInt8} {p : Preset}

theorem messages_of_other (number : device < 0x80) (other : ¬ IsAscii p.text) :
    Framer.messages (dumpOf device [p]) = [] := by
  obtain ⟨front, b, back, bytes, low, high, small⟩ := Utf8.encode_other other
  have whole : dumpOf device [p] = (0xF0 :: 0x1C :: 0x70 :: device :: 0x49 :: front) ++
      b :: (back ++ [0x00, Bytes.sysexEnd]) := by
    rw [dumpOf_singleton, bytes]
    simp
  rw [whole]
  apply Framer.messages_of_spoiled _ low (Nat.lt_trans high (by decide))
  · -- behind the last character beyond ASCII there is no start
    intro member
    rcases List.mem_append.mp member with inText | atEnd
    · exact absurd (small _ inText) (by decide)
    · exact absurd atEnd (by decide)
  · have text : Bytes.sysexEnd ∉ front := by
      intro member
      apply sysexEnd_not_mem_encode p.text
      rw [bytes]
      exact List.mem_append_left _ member
    have other : Bytes.sysexEnd ≠ device := by
      rintro rfl
      exact absurd number (by decide)
    have header : Bytes.sysexEnd ∉ ([0xF0, 0x1C, 0x70, 0x49] : Bytes) := by decide
    simp only [List.mem_cons, List.not_mem_nil, or_false, not_or] at header ⊢
    exact ⟨header.1, header.2.1, header.2.2.1, other, header.2.2.2, text⟩

theorem messages_dumpOf (number : device < 0x80) (p : Preset) :
    Framer.messages (dumpOf device [p]) = if IsAscii p.text then [dumpOf device [p]] else [] := by
  split_ifs with ascii
  · exact Framer.messages_eq_singleton_iff.mpr (isMessage_single number ascii)
  · exact messages_of_other number ascii

theorem isMessage_single_iff (number : device < 0x80) :
    (dumpOf device [p]).IsMessage ↔ IsAscii p.text := by
  rw [← Framer.messages_eq_singleton_iff, messages_dumpOf number]
  split_ifs with ascii
  · simp [ascii]
  · simp [ascii]

theorem isAscii_named_iff (plain : p.Plain) {name : String}
    (fits : ∀ c ∈ name.toList, isControl c = false) (id : Nat) :
    IsAscii ((p.named name).inSlot id).text ↔ IsAscii (p.named name).name.toList := by
  constructor
  · intro ascii
    exact Preset.isAscii_text_iff.mp ascii _ (List.mem_append_right _ (List.mem_singleton_self _))
  · intro ascii
    exact ((plain.named fits ascii).inSlot id).ascii_text

end Heard

namespace Presets

variable {P : Type} [Port P] {d d' : Device P} {p : Pedal} {source target : String}

theorem download_kept {l : Link P} {path : String} {bank : List Preset} {id index : Nat}
    {preset : Preset} (known : d.state = some (.pedal p)) (kept : p.bank = some bank)
    (parsed : DevicePath.id path = .ok id) (inside : p.index id path = .ok index)
    (slot : bank[index]? = some preset) (active : l.started.run.job.active = true) :
    answer (download path { d with link := l }) = .ok preset.toMessage := by
  have going : ¬ Link.Stopped true l.started := by
    rintro ⟨-, inactive⟩
    rw [active] at inactive
    cases inactive
  have found : read p path true { d with link := l.started } = .ok preset { d with link := l.started } := by
    rw [read_kept parsed inside kept]
    simp only [entry, slot, ofExcept_ok]
  have same : pedal { d with link := l.started } = .ok p { d with link := l.started } :=
    pedal_of_state known
  rw [download, bind_of_ok (start_apply _), bind_of_ok same, bind_of_ok found,
    bind_of_ok (Device.onLink_of_ok (Link.check_of_not_stopped going))]
  rfl

theorem renamed_eq (preset : Preset) (target : String) :
    renamed preset target = preset.named (newName target) := rfl

/-- In the bank and in a download the slot that the path names has the preset. -/
def Shows (p : Pedal) (path : String) (preset : Preset) (d : Device P) : Prop :=
  (∃ id index bank, DevicePath.id path = .ok id ∧ p.index id path = .ok index ∧
    d.state = some (.pedal { p with bank := some bank }) ∧ bank[index]? = some preset) ∧
  ∀ l : Link P, l.started.run.job.active = true →
    answer (download path { d with link := l }) = .ok preset.toMessage

theorem shows_of_bank {path : String} {id index : Nat} {bank : List Preset} {preset : Preset}
    (state : d.state = some (.pedal { p with bank := some bank })) (parsed : DevicePath.id path = .ok id)
    (inside : p.index id path = .ok index) (slot : bank[index]? = some preset) : Shows p path preset d := by
  refine ⟨⟨id, index, bank, parsed, inside, state, slot⟩, ?_⟩
  intro l active
  exact download_kept (p := { p with bank := some bank }) state rfl parsed inside slot active

theorem targets_renamed {preset : Preset} {id index : Nat} {message : Bytes}
    (bound : id < DevicePath.idBound) (blank : ' ' ∈ preset.firstLine.toList)
    (targets : p.Targets ("/" ++ toString id) (renamed preset target).toMessage index message) :
    index = id - p.first ∧ message = dumpOf p.deviceId [(renamed preset target).inSlot id] := by
  obtain ⟨id', parsed, inside, encoded⟩ := targets
  rw [DevicePath.id_slot bound] at parsed
  cases parsed
  have short := (retarget_ok_iff.mp encoded).2.1
  rw [toMessage_eq] at encoded short
  have tagged : ' ' ∈ (renamed preset target).firstLine.toList := by
    rw [renamed_eq, Preset.firstLine_named]
    exact blank
  rw [retarget_dumpOf tagged short] at encoded
  exact ⟨((p.index_ok_iff id _ index).mp inside).2.2, (Except.ok.inj encoded).symm⟩

/-- A rename of a preset as the pedal sent it writes one dump, the bulk request apart. That is the
preset under the new name, which from then on is shown, but it is a message that the pedal hears
exactly if the new name is ASCII. -/
theorem rename_heard_iff (known : d.state = some (.pedal p)) (number : p.deviceId < 0x80)
    (framed : ∀ bank, p.bank = some bank → ∀ q ∈ bank, q.Framed)
    (clean : p.bank = none → d.link.framer.Clean)
    (blank : ∀ preset d₁, read p source false d = .ok preset d₁ → ' ' ∈ preset.firstLine.toList)
    (run : rename source target d = .ok () d') :
    ∃ id preset d₁, DevicePath.id source = .ok id ∧ read p source false d = .ok preset d₁ ∧
      let record := (renamed preset target).inSlot id
      let message := dumpOf p.deviceId [record]
      d'.link.accepted =
        d.link.accepted ++ (if p.bank.isSome then [] else bulkRequest) ++ message ∧
      Preset.ofDump message = [record] ∧ Shows p source record d' ∧
      (message.IsMessage ↔ IsAscii record.name.toList) ∧
      Framer.messages message = if IsAscii record.name.toList then [message] else [] := by
  obtain ⟨id, preset, d₁, parsed, fits, found, stored⟩ := rename_ok known run
  have plain : preset.Plain := (read_framed framed clean found).plain (blank preset d₁ found)
  obtain ⟨id', index, -, parsed', inside, -, -⟩ := read_source found
  rw [parsed] at parsed'
  cases parsed'
  obtain ⟨⟨bank, state, slot⟩, accepted⟩ := read_ok known parsed inside found
  have legible : ((renamed preset target).inSlot id).Legible := (plain.legible.named fits).inSlot id
  obtain ⟨index', message, l, targets, rfl⟩ := store_ok state stored
  have wrote := store_wrote false state targets
  rw [stored] at wrote
  obtain ⟨rfl, rfl⟩ := targets_renamed (DevicePath.id_lt parsed) plain.blank targets
  obtain ⟨-, -, rfl⟩ := (p.index_ok_iff id source index).mp inside
  refine ⟨id, preset, d₁, parsed, found, ?_, ofDump_single legible, ?_, ?_, ?_⟩
  · cases wrote with
    | whole written =>
      rw [← accepted]
      exact written
  · have there := (List.getElem?_eq_some_iff.mp slot).1
    have inLine := Pedal.refresh_dumpOf { p with bank := some bank } p.deviceId rfl there legible
    refine shows_of_bank ?_ parsed inside (List.getElem?_set_self there)
    rw [inLine]
    rfl
  · rw [isMessage_single_iff number]
    exact isAscii_named_iff plain fits id
  · rw [messages_dumpOf number]
    exact if_congr (isAscii_named_iff plain fits id) rfl rfl

def lead : Preset := ⟨#v["[1] 2", "a", "b", "c", "d", "e"], "Lead"⟩

def leadPedal : Device VirtualPort :=
  silentPedal.setState (.pedal { threePresets with bank := some [lead] })

def leadAs (name : String) : Preset := (renamed lead name).inSlot 0

/-- The pedal hears that a preset is called "Solo" from now on, and not that it is called "Café".
Both renames succeed, and the second name is shown all the same. -/
theorem accented_name_unheard :
    (∃ d', rename "/0" "Solo" leadPedal = .ok () d' ∧
      d'.link.accepted = dumpOf 5 [leadAs "Solo"] ∧ (leadAs "Solo").name = "Solo" ∧
      Framer.messages (dumpOf 5 [leadAs "Solo"]) = [dumpOf 5 [leadAs "Solo"]]) ∧
    (∃ d', rename "/0" "Café" leadPedal = .ok () d' ∧
      d'.link.accepted = dumpOf 5 [leadAs "Café"] ∧ (leadAs "Café").name = "Café" ∧
      ¬ (dumpOf 5 [leadAs "Café"]).IsMessage ∧ Framer.messages (dumpOf 5 [leadAs "Café"]) = [] ∧
      Shows { threePresets with bank := some [lead] } "/0" (leadAs "Café") d') := by
  have heard (name : String) (succeeded : answer (rename "/0" name leadPedal) = .ok ()) :
      ∃ d', rename "/0" name leadPedal = .ok () d' ∧ d'.link.accepted = dumpOf 5 [leadAs name] ∧
        Shows { threePresets with bank := some [lead] } "/0" (leadAs name) d' ∧
        ((dumpOf 5 [leadAs name]).IsMessage ↔ IsAscii (leadAs name).name.toList) ∧
        Framer.messages (dumpOf 5 [leadAs name]) =
          if IsAscii (leadAs name).name.toList then [dumpOf 5 [leadAs name]] else [] := by
    have plain : lead.Plain := by decide +kernel
    have first : DevicePath.id "/0" = .ok 0 := by decide +kernel
    have run := eq_ok_of_answer succeeded
    have found : read { threePresets with bank := some [lead] } "/0" false leadPedal =
        .ok lead leadPedal := by
      have inside : Pedal.index { threePresets with bank := some [lead] } 0 "/0" = .ok 0 := by
        decide +kernel
      rw [read_kept first inside rfl]
      rfl
    obtain ⟨id, preset, d₁, parsed, again, accepted, -, shows, whole, messages⟩ :=
      rename_heard_iff (p := { threePresets with bank := some [lead] }) rfl (by decide)
        (fun bank kept q member => by
          cases kept
          rw [List.mem_singleton.mp member]
          exact plain.framed)
        (fun unread => by cases unread)
        (fun preset d₁ again => by
          rw [found] at again
          cases again
          exact plain.blank)
        run
    rw [found] at again
    cases again
    rw [first] at parsed
    cases parsed
    exact ⟨_, run, accepted, shows, whole, messages⟩
  obtain ⟨d₁, renamed₁, accepted₁, -, -, messages₁⟩ := heard "Solo" (by decide +kernel)
  obtain ⟨d₂, renamed₂, accepted₂, shows₂, whole₂, messages₂⟩ := heard "Café" (by decide +kernel)
  have solo : IsAscii (leadAs "Solo").name.toList := by decide +kernel
  have accented : ¬ IsAscii (leadAs "Café").name.toList := by decide +kernel
  refine ⟨⟨d₁, renamed₁, accepted₁, by decide +kernel, ?_⟩, d₂, renamed₂, accepted₂, by decide +kernel,
    ?_, ?_, shows₂⟩
  · rw [messages₁, if_pos solo]
  · rw [whole₂]
    exact accented
  · rw [messages₂, if_neg accented]

end Presets

end MidiStorage.Eventide
