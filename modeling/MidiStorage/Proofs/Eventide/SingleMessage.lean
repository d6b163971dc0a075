import MidiStorage.Port.Virtual
import MidiStorage.Proofs.Cache.Durable
import MidiStorage.Proofs.Eventide.Dump
import MidiStorage.Proofs.Framing.Whole

namespace MidiStorage.Eventide

open MidiStorage.Action Text

/-- From its first blank on the dump is data, up to an end mark that is its last byte. -/
def EndsOnce (data : Bytes) : Prop :=
  ∃ text, (∀ b ∈ text, Bytes.isData b = true) ∧
    (data.drop dumpOffset).dropWhile (· ≠ 0x20) = text ++ [Bytes.sysexEnd]

def slotStart (device : UInt8) (id : Nat) : Bytes :=
  0xF0 :: 0x1C :: 0x70 :: device :: dumpCode :: slotTag id

theorem retarget_eq {data message : Bytes} {device : UInt8} {id : Nat}
    (encoded : retarget data device id = .ok message) :
    message = slotStart device id ++ (data.drop dumpOffset).dropWhile (· ≠ 0x20) := by
  obtain ⟨-, -, d, body, rfl, -, rfl⟩ := retarget_ok_iff.mp encoded
  rfl

theorem slotStart_data {device : UInt8} (number : device < 0x80) (id : Nat) {b : UInt8}
    (member : b ∈ (slotStart device id).tail) : Bytes.isData b = true := by
  simp only [slotStart, List.tail_cons, List.mem_cons] at member
  rcases member with rfl | rfl | rfl | rfl | inTag
  · decide
  · decide
  · exact decide_eq_true number
  · decide
  · apply decide_eq_true
    rw [UInt8.lt_iff_toNat_lt]
    exact (mem_slotTag inTag).2

theorem isMessage_slotStart {device : UInt8} (number : device < 0x80) (id : Nat) {text : Bytes}
    (textData : ∀ b ∈ text, Bytes.isData b = true) :
    (slotStart device id ++ (text ++ [Bytes.sysexEnd])).IsMessage := by
  rw [← List.append_assoc]
  refine ⟨slotStart device id ++ text, ⟨(slotStart device id).tail ++ text, rfl, ?_⟩, rfl⟩
  intro b member
  rcases List.mem_append.mp member with start | inside
  · exact slotStart_data number id start
  · exact textData b inside

section Retarget

variable {data message : Bytes} {device : UInt8} {id : Nat}

theorem isMessage_iff_endsOnce (number : device < 0x80)
    (encoded : retarget data device id = .ok message) : message.IsMessage ↔ EndsOnce data := by
  rw [retarget_eq encoded]
  constructor
  · rintro ⟨opening, ⟨body, rfl, bodyData⟩, whole⟩
    obtain ⟨-, -, d, behind, rfl, blank, -⟩ := retarget_ok_iff.mp encoded
    change slotStart device id ++ behind.dropWhile (· ≠ 0x20) = _ at whole
    rcases List.eq_nil_or_concat (behind.dropWhile (· ≠ 0x20)) with none | ⟨text, last, rest⟩
    · exact absurd blank (dropWhile_eq_nil_iff.mp none)
    rw [List.concat_eq_append] at rest
    rw [rest, ← List.append_assoc] at whole
    obtain ⟨front, same⟩ := List.append_inj' whole rfl
    cases same
    refine ⟨text, ?_, rest⟩
    intro b member
    apply bodyData
    -- the text is part of what stands between the start and the end
    have tails := congrArg List.tail front
    change (slotStart device id).tail ++ text = body at tails
    rw [← tails]
    exact List.mem_append_right _ member
  · rintro ⟨text, textData, ends⟩
    rw [ends]
    exact isMessage_slotStart number id textData

theorem messages_of_joined (number : device < 0x80) {dump rest : Bytes} (ends : EndsOnce dump)
    (encoded : retarget (dump ++ rest) device id = .ok message) :
    ∃ first, slotStart device id <+: first ∧
      Framer.messages message = first :: Framer.messages rest := by
  obtain ⟨text, textData, tail⟩ := ends
  have long : dumpOffset ≤ dump.length := by
    by_contra short
    rw [List.drop_eq_nil_of_le (by omega)] at tail
    simp at tail
  have whole : message = (slotStart device id ++ (text ++ [Bytes.sysexEnd])) ++ rest := by
    have some : ¬ (text ++ [Bytes.sysexEnd]).isEmpty = true := by simp
    rw [retarget_eq encoded, List.drop_append_of_le_length long, List.dropWhile_append, tail,
      if_neg some, List.append_assoc (slotStart device id)]
  refine ⟨slotStart device id ++ (text ++ [Bytes.sysexEnd]), List.prefix_append _ _, ?_⟩
  rw [whole, Framer.messages_append (isMessage_slotStart number id textData)]

theorem messages_of_endless (number : device < 0x80)
    (endless : Bytes.sysexEnd ∉ (data.drop dumpOffset).dropWhile (· ≠ 0x20))
    (encoded : retarget data device id = .ok message) : Framer.messages message = [] := by
  apply Framer.push_endless
  rw [retarget_eq encoded, List.mem_append, not_or]
  refine ⟨?_, endless⟩
  intro member
  change _ ∈ Bytes.sysexStart :: (slotStart device id).tail at member
  rcases List.mem_cons.mp member with start | inside
  · exact absurd start (by decide)
  · exact absurd (slotStart_data number id inside) (by decide)

end Retarget

namespace Presets

variable {P : Type} {d : Device P} {message : Bytes}

/-- What was accepted meanwhile is a front part of the message, and all of it if the run ended
well. -/
inductive Wrote (message : Bytes) (d : Device P) : EStateM.Result Failure (Device P) Unit → Prop
  | whole {d' : Device P} (accepted : d'.link.accepted = d.link.accepted ++ message) :
    Wrote message d (.ok () d')
  | part {e : Failure} {d' : Device P} (k : Nat)
    (accepted : d'.link.accepted = d.link.accepted ++ message.take k) : Wrote message d (.error e d')

theorem Wrote.failed {e : Failure} {d' : Device P}
    (accepted : d'.link.accepted = d.link.accepted ++ message) : Wrote message d (.error e d') := by
  apply Wrote.part message.length
  rw [List.take_length]
  exact accepted

variable [Port P] {p : Pedal} {path : String} {data : Bytes} {index : Nat}

theorem store_wrote (watched : Bool) (known : d.state = some (.pedal p))
    (targets : p.Targets path data index message) :
    Wrote message d (store path data watched d) := by
  have sending := Link.transmitAll_sent message watched d.link
  have listening := listen_preserves (Link.accepted_lasting (P := P) (d.link.accepted ++ message)) watched
  have ended := store_stored known targets watched
  generalize store path data watched d = result at ended ⊢
  cases ended with
  | unsent unsent =>
    rw [unsent] at sending
    obtain ⟨k, -, part⟩ := sending
    exact .part k part
  | disturbed sent disturbed =>
    rw [sent] at sending
    exact .failed (listening.of_error sending disturbed)
  | stopped sent silence _ =>
    rw [sent] at sending
    exact .failed (listening.of_ok sending silence)
  | done sent silence =>
    rw [sent] at sending
    exact .whole (listening.of_ok sending silence)

theorem upload_wrote (known : d.state = some (.pedal p)) (targets : p.Targets path data index message) :
    Wrote message d (upload path data d) := by
  have wrote := store_wrote (d := { d with link := d.link.started }) true known targets
  rw [upload, bind_of_ok (start_apply d)]
  generalize result : store path data true { d with link := d.link.started } = outcome at wrote
  cases wrote with
  | part k accepted =>
    rw [bind_of_error result]
    exact .part k accepted
  | whole accepted =>
    rw [bind_of_ok result]
    exact .whole accepted

/-- An upload that is not refused writes a message that begins with the tag of the slot, and writes
all of it if it succeeds. That is a single message to the pedal exactly if the dump ends once; dumps
joined to such a one are heard as well, and without an end mark nothing is heard. -/
theorem upload_single_iff (known : d.state = some (.pedal p)) (number : p.deviceId < 0x80)
    (targets : p.Targets path data index message) :
    Wrote message d (upload path data d) ∧
    (Framer.messages message = [message] ↔ EndsOnce data) ∧
    (∃ id, DevicePath.id path = .ok id ∧ slotStart p.deviceId id <+: message ∧
      ∀ dump rest, data = dump ++ rest → EndsOnce dump →
        ∃ first, slotStart p.deviceId id <+: first ∧
          Framer.messages message = first :: Framer.messages rest) ∧
    (Bytes.sysexEnd ∉ (data.drop dumpOffset).dropWhile (· ≠ 0x20) →
      Framer.messages message = []) := by
  have wrote := upload_wrote known targets
  obtain ⟨id, parsed, -, encoded⟩ := targets
  refine ⟨wrote, ?_, ⟨id, parsed, ?_, ?_⟩, ?_⟩
  · rw [Framer.messages_eq_singleton_iff]
    exact isMessage_iff_endsOnce number encoded
  · rw [retarget_eq encoded]
    exact List.prefix_append _ _
  · rintro dump rest rfl ends
    exact messages_of_joined number ends encoded
  · intro endless
    exact messages_of_endless number endless encoded

def threePresets : Pedal := { deviceId := 5, kind := .h9, first := 0, count := 3 }

def silentPedal : Device VirtualPort where
  link := Link.ofPort "virtual:0" (VirtualPort.silent "virtual") Timing.standard
  state := some (.pedal threePresets)

def leadDump : Bytes := (⟨#v["[3] 0", "a", "b", "c", "d", "e"], "Lead"⟩ : Preset).toMessage

def sentFor (data : Bytes) : Bytes := slotStart 5 1 ++ (data.drop dumpOffset).dropWhile (· ≠ 0x20)

/-- Two dumps in one file are both heard, the second with its own tag, and a dump that was cut off
is not heard at all. The uploads succeed as that of a single dump does. -/
theorem joined_dumps_heard :
    let twice := leadDump ++ leadDump
    let short := leadDump.dropLast
    (Wrote (sentFor leadDump) silentPedal (upload "/1" leadDump silentPedal) ∧ EndsOnce leadDump) ∧
    (answer (upload "/1" twice silentPedal) = .ok () ∧ ¬ EndsOnce twice ∧
      Wrote (sentFor twice) silentPedal (upload "/1" twice silentPedal) ∧
      Framer.messages (sentFor twice) = [sentFor leadDump, leadDump]) ∧
    (answer (upload "/1" short silentPedal) = .ok () ∧
      Wrote (sentFor short) silentPedal (upload "/1" short silentPedal) ∧
      Framer.messages (sentFor short) = []) := by
  intro twice short
  have targets (data : Bytes) (encoded : retarget data 5 1 = .ok (sentFor data)) :
      threePresets.Targets "/1" data 1 (sentFor data) :=
    ⟨1, by decide +kernel, by decide +kernel, encoded⟩
  have number : threePresets.deviceId < 0x80 := by decide
  obtain ⟨wroteLead, single, -⟩ := upload_single_iff (d := silentPedal) rfl number
    (targets leadDump (by decide +kernel))
  obtain ⟨wroteTwice, several, -⟩ := upload_single_iff (d := silentPedal) rfl number
    (targets twice (by decide +kernel))
  obtain ⟨wroteShort, -, -, endless⟩ := upload_single_iff (d := silentPedal) rfl number
    (targets short (by decide +kernel))
  have both : Framer.messages (sentFor twice) = [sentFor leadDump, leadDump] := by decide +kernel
  refine ⟨⟨wroteLead, single.mp (by decide +kernel)⟩, ⟨by decide +kernel, ?_, wroteTwice, both⟩,
    by decide +kernel, wroteShort, endless (by decide +kernel)⟩
  intro once
  have alone := congrArg List.length (several.mpr once)
  rw [both, List.length_cons, List.length_singleton, List.length_singleton] at alone
  omega

end Presets

end MidiStorage.Eventide
