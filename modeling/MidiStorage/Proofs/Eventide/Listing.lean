import Mathlib.Data.List.Basic
import MidiStorage.Eventide.Dialect
import MidiStorage.Port.Virtual
import MidiStorage.Proofs.Eventide.Framed

namespace MidiStorage.Eventide

open MidiStorage.Action

namespace Preset

theorem length_ofLines (texts : List String) : (ofLines texts).length = texts.length / 7 := by
  fun_induction ofLines texts with
  | case1 a b c d e f name rest ih =>
    simp only [List.length_cons, ih]
    omega
  | case2 texts short =>
    have few : texts.length < 7 := by
      obtain _ | ⟨a, _ | ⟨b, _ | ⟨c, _ | ⟨d, _ | ⟨e, _ | ⟨f, _ | ⟨name, rest⟩⟩⟩⟩⟩⟩⟩ := texts
      case cons.cons.cons.cons.cons.cons.cons => exact (short a b c d e f name rest rfl).elim
      all_goals simp
    rw [List.length_nil, Nat.div_eq_of_lt few]

theorem name_of_ofLines {texts : List String} {i : Nat} {preset : Preset}
    (read : (ofLines texts)[i]? = some preset) : texts[7 * i + 6]? = some preset.name := by
  fun_induction ofLines texts generalizing i with
  | case1 a b c d e f name rest ih =>
    cases i with
    | zero =>
      cases read
      rfl
    | succ i =>
      rw [List.getElem?_cons_succ] at read
      have later := ih read
      exact later
  | case2 => cases read

def linesOf (message : Bytes) : List String :=
  (Text.lines (textAt message dumpOffset)).map String.ofList

theorem name_toMessage {preset : Preset} (legible : preset.Legible) :
    (linesOf preset.toMessage)[6]? = some preset.name := by
  have read : ofLines (linesOf preset.toMessage) = [preset] := by
    rw [toMessage_eq]
    exact ofDump_single legible
  have first : (ofLines (linesOf preset.toMessage))[0]? = some preset := by
    rw [read]
    rfl
  exact name_of_ofLines first

theorem Framed.legible {preset : Preset} (framed : preset.Framed) : preset.Legible :=
  ⟨fun _ member => (framed.line member).2.1, fun _ member => (framed.line member).2.2⟩

end Preset

def Pedal.slot (p : Pedal) (bank : List Preset) (id : Nat) : Option Preset :=
  if p.first ≤ id ∧ id - p.first < p.count then bank[id - p.first]? else none

namespace Presets

variable {p : Pedal} {bank : List Preset}

theorem ids_items (p : Pedal) (bank : List Preset) :
    (items p bank).map (·.id) = List.range' p.first (items p bank).length := by
  apply List.ext_getElem
  · simp
  · intro i inside _
    simp [items]

theorem length_items (p : Pedal) (bank : List Preset) :
    (items p bank).length = min p.count bank.length := by
  simp [items]

theorem mem_items_iff {item : Item} :
    item ∈ items p bank ↔
      ∃ preset, p.slot bank item.id = some preset ∧ item = { id := item.id, name := preset.name } := by
  unfold items Pedal.slot
  rw [List.mem_mapIdx]
  constructor
  · rintro ⟨i, inside, rfl⟩
    rw [List.length_take] at inside
    have counted : p.first ≤ p.first + i ∧ p.first + i - p.first < p.count := by omega
    have present : p.first + i - p.first < bank.length := by omega
    refine ⟨bank[p.first + i - p.first], ?_, ?_⟩
    · rw [if_pos counted, List.getElem?_eq_getElem present]
    · simp
  · rintro ⟨preset, found, same⟩
    split_ifs at found with counted
    obtain ⟨present, here⟩ := List.getElem?_eq_some_iff.mp found
    refine ⟨item.id - p.first, ?_, ?_⟩
    · rw [List.length_take]
      omega
    · have whole : p.first + (item.id - p.first) = item.id := by omega
      rw [List.getElem_take, here, whole]
      exact same.symm

section Download

variable {P : Type} [Port P] {d : Device P} {path : String} {id : Nat} {l : Link P}

theorem read_slot (parsed : DevicePath.id path = .ok id) (kept : p.bank = some bank) (watched : Bool) :
    read p path watched d = match p.slot bank id with
      | some preset => .ok preset d
      | none => .error (.invalidPath path) d := by
  unfold Pedal.slot
  by_cases inside : p.first ≤ id ∧ id - p.first < p.count
  · have index : p.index id path = .ok (id - p.first) := by
      rw [Pedal.index, if_pos inside]
    rw [read_kept parsed index kept, if_pos inside, entry]
    cases bank[id - p.first]? <;> rfl
  · have index : p.index id path = .error (.invalidPath path) := by
      rw [Pedal.index, if_neg inside]
    rw [read, parsed, bind_of_ok (ofExcept_ok id d), index, bind_of_error (ofExcept_error _ d),
      if_neg inside]

theorem download_slot (known : d.state = some (.pedal p)) (kept : p.bank = some bank)
    (parsed : DevicePath.id path = .ok id) (active : l.started.run.job.active = true) :
    (∃ run, (final (download path { d with link := l })).link = { l with run }) ∧
      answer (download path { d with link := l }) = match p.slot bank id with
        | some preset => .ok preset.toMessage
        | none => .error (.invalidPath path) := by
  have same : pedal { d with link := l.started } = .ok p { d with link := l.started } :=
    pedal_of_state known
  have found := read_slot (d := { d with link := l.started }) parsed kept true
  rw [download, bind_of_ok (start_apply _), bind_of_ok same]
  cases slot : p.slot bank id with
  | none =>
    rw [slot] at found
    rw [bind_of_error found]
    exact ⟨⟨_, rfl⟩, rfl⟩
  | some preset =>
    have going : ¬ Link.Stopped true l.started := by
      rintro ⟨-, inactive⟩
      rw [active] at inactive
      cases inactive
    rw [slot] at found
    rw [bind_of_ok found, bind_of_ok (Device.onLink_of_ok (Link.check_of_not_stopped going))]
    exact ⟨⟨_, rfl⟩, rfl⟩

end Download

section Listing

variable {P : Type} [Port P]

/-- What the pedal answers to the bulk request, which waits for the relays if it was made before. -/
def bulkReply (p : Pedal) : Action (Link P) Bytes := do
  if p.bank.isSome then Link.pause false (← get).timing.settlePause
  Link.withTransfer { raw := bulkRequest, timeout := bulkTimeout, cacheable := false } Exchange.perform

def banked (d : Device P) (p : Pedal) (dump : Bytes) (l : Link P) : Device P :=
  { d with link := l, state := some (.pedal { p with bank := some (Preset.ofDump dump) }) }

theorem bulkRead_of_reply {d : Device P} {l : Link P} {dump : Bytes}
    (heard : Link.withTransfer { raw := bulkRequest, timeout := bulkTimeout, cacheable := false }
      Exchange.perform d.link = .ok dump l) : bulkRead p false d = .ok (Preset.ofDump dump) (banked d p dump l) := by
  rw [bulkRead, bind_of_ok (Device.onLink_of_ok heard)]
  rfl

theorem fetch_of_reply {d : Device P} {l : Link P} {dump : Bytes}
    (heard : bulkReply p d.link = .ok dump l) :
    fetch p false d = .ok (Preset.ofDump dump) (banked d p dump l) := by
  unfold bulkReply at heard
  cases kept : p.bank with
  | none =>
    simp only [kept, Option.isSome_none, Bool.false_eq_true, ↓reduceIte] at heard
    rw [fetch_unread kept, bulkRead_of_reply heard]
  | some bank =>
    simp only [kept, Option.isSome_some, ↓reduceIte] at heard
    rw [bind_of_ok (get_apply _), bind_eq_ok] at heard
    obtain ⟨_, l₁, settled, heard⟩ := heard
    rw [fetch_again kept, bind_of_ok (Device.onLink_of_ok settled)]
    exact bulkRead_of_reply (d := { d with link := l₁ }) heard

/-- After a listing just the listed slots can be downloaded, from the kept bank and under the listed
names, by whatever job and on whatever link. -/
theorem listed_downloadable {d : Device P} {dump : Bytes} {l : Link P}
    (known : d.state = some (.pedal p)) (bound : p.first + p.count ≤ DevicePath.idBound)
    (heard : bulkReply p d.link = .ok dump l) (framed : dump.IsMessage) :
    ∃ listing d', (presetVolume P).readDir "/" d = .ok listing d' ∧
      listing.length = min p.count ((Preset.linesOf dump).length / 7) ∧
      listing.map (·.id) = List.range' p.first listing.length ∧
      (∀ item ∈ listing, item.id < DevicePath.idBound) ∧
      (∀ i item, listing[i]? = some item → (Preset.linesOf dump)[7 * i + 6]? = some item.name) ∧
      ∀ path id (l' : Link P), DevicePath.id path = .ok id → l'.started.run.job.active = true →
        let run := (presetVolume P).download path { d' with link := l' }
        (∃ job, (final run).link = { l' with run := job }) ∧
        (∀ item ∈ listing, item.id = id → ∃ message, answer run = .ok message ∧
          (Preset.linesOf message)[6]? = some item.name) ∧
        ((∀ item ∈ listing, item.id ≠ id) → answer run = .error (.invalidPath path)) := by
  have listed : (presetVolume P).readDir "/" d =
      .ok (items p (Preset.ofDump dump)) (banked d p dump l) := by
    change list "/" d = _
    rw [list]
    simp only [ne_eq, not_true_eq_false, ↓reduceIte]
    rw [bind_of_ok (pedal_of_state known), bind_of_ok (fetch_of_reply heard)]
    rfl
  have named {id : Nat} {preset : Preset} (found : p.slot (Preset.ofDump dump) id = some preset) :
      (Preset.linesOf preset.toMessage)[6]? = some preset.name := by
    unfold Pedal.slot at found
    split_ifs at found with counted
    have framedPreset : preset.Framed := ⟨dump, framed, List.mem_of_getElem? found⟩
    exact Preset.name_toMessage framedPreset.legible
  refine ⟨_, _, listed, ?_, ids_items _ _, ?_, ?_, ?_⟩
  · rw [length_items, Preset.ofDump, Preset.length_ofLines]
    rfl
  · intro item member
    obtain ⟨preset, found, -⟩ := mem_items_iff.mp member
    unfold Pedal.slot at found
    split_ifs at found with counted
    omega
  · intro i item here
    unfold items at here
    rw [List.getElem?_mapIdx, List.getElem?_take] at here
    obtain ⟨preset, found, rfl⟩ := Option.map_eq_some_iff.mp here
    split_ifs at found with counted
    exact Preset.name_of_ofLines found
  · -- a download looks its slot up in the bank that the listing kept
    intro path id l' parsed active
    obtain ⟨quiet, downloaded⟩ := download_slot (d := banked d p dump l)
      (p := { p with bank := some (Preset.ofDump dump) }) rfl rfl parsed active
    change answer ((presetVolume P).download path { banked d p dump l with link := l' }) =
      (match p.slot (Preset.ofDump dump) id with
        | some preset => .ok preset.toMessage
        | none => .error (.invalidPath path)) at downloaded
    refine ⟨quiet, ?_, ?_⟩
    · rintro item member rfl
      obtain ⟨preset, found, same⟩ := mem_items_iff.mp member
      rw [found] at downloaded
      rw [same]
      exact ⟨_, downloaded, named found⟩
    · intro unlisted
      cases found : p.slot (Preset.ofDump dump) id with
      | none => rwa [found] at downloaded
      | some preset =>
        have member : { id, name := preset.name } ∈ items p (Preset.ofDump dump) :=
          mem_items_iff.mpr ⟨preset, found, rfl⟩
        exact absurd rfl (unlisted _ member)

def raggedDump : Bytes :=
  header ++ dumpCode :: Preset.encodeLines ["[11] 0", "a", "b", "c", "d", "e", "One",
    "[12] 0", "a", "b", "c", "d", "e", "Two", "[13]"] ++ [0x00, Bytes.sysexEnd]

def ragged : Pedal := { deviceId := 0, kind := .h9, first := 10, count := 5 }

def raggedDevice : Device VirtualPort where
  link := Link.ofPort "virtual:0"
    { name := "virtual", respond := fun _ _ => { parts := [raggedDump] } } Timing.standard
  state := some (.pedal ragged)

theorem ragged_downloadable :
    ∃ listing d', (presetVolume VirtualPort).readDir "/" raggedDevice = .ok listing d' ∧
      listing.map (·.id) = [10, 11] ∧
      ∀ l' : Link VirtualPort, l'.started.run.job.active = true →
        (∃ message, answer ((presetVolume VirtualPort).download "/11" { d' with link := l' }) = .ok message ∧
          (Preset.linesOf message)[6]? = some "Two") ∧
        answer ((presetVolume VirtualPort).download "/12" { d' with link := l' }) =
          .error (.invalidPath "/12") := by
  have heard : answer (bulkReply ragged raggedDevice.link) = .ok raggedDump := by decide +kernel
  have framed : raggedDump.IsMessage := Framer.messages_eq_singleton_iff.mp (by decide +kernel)
  obtain ⟨listing, d', listed, length, ids, -, names, downloads⟩ :=
    listed_downloadable (d := raggedDevice) rfl (by decide) (eq_ok_of_answer heard) framed
  have two : min ragged.count ((Preset.linesOf raggedDump).length / 7) = 2 := by decide +kernel
  rw [two] at length
  obtain ⟨first, second, rfl⟩ := List.length_eq_two.mp length
  have idsAre : [first.id, second.id] = [10, 11] := ids
  have name := names 1 second rfl
  have two : (Preset.linesOf raggedDump)[7 * 1 + 6]? = some "Two" := by decide +kernel
  rw [two] at name
  obtain ⟨ten, rest⟩ := List.cons.inj idsAre
  obtain ⟨eleven, -⟩ := List.cons.inj rest
  refine ⟨_, d', listed, ids, ?_⟩
  intro l' active
  constructor
  · obtain ⟨-, found, -⟩ := downloads "/11" 11 l' (by decide +kernel) active
    obtain ⟨message, downloaded, line⟩ := found second (by simp) eleven
    exact ⟨message, downloaded, line.trans name.symm⟩
  · obtain ⟨-, -, missing⟩ := downloads "/12" 12 l' (by decide +kernel) active
    apply missing
    intro item member
    rcases List.mem_cons.mp member with rfl | member
    · rw [ten]
      decide
    · rw [List.mem_singleton.mp member, eleven]
      decide

end Listing

end Presets

end MidiStorage.Eventide
