import MidiStorage.Proofs.Browsing.UploadPaths
import MidiStorage.Proofs.Eventide.BulkReads
import MidiStorage.Proofs.Eventide.Listing
import MidiStorage.Proofs.Eventide.NewName
import MidiStorage.Proofs.Eventide.RoundTrip

namespace MidiStorage.Eventide

open MidiStorage.Action

theorem Slots.inside_preset {last : String} (component : '/' ∉ last.toList) :
    Slots.inside ("/preset/" ++ last) = .ok ("/" ++ last) := by
  have chars : ("/preset/" ++ last).toList = '/' :: ("preset".toList ++ '/' :: last.toList) := by
    simp
  have ends : ∀ c ∈ ('/' :: last.toList).head?, c = '/' := by simp
  have open' : last.toList.getLast? ≠ some '/' := fun closed => component (List.mem_of_getLast? closed)
  have whole : String.ofList ('/' :: last.toList) = "/" ++ last := by
    apply String.toList_inj.mp
    simp
  unfold Slots.inside
  rw [DevicePath.split_apply chars (by decide) ends, if_neg (by decide)]
  simp only [List.tail_cons, Text.trimEnd_of_getLast? open', String.ofList_toList, ↓reduceIte, whole]

theorem Slots.inside_bare {name : String} (component : '/' ∉ name.toList) :
    Slots.inside name = .error (.invalidPath name) := by
  unfold Slots.inside
  rw [split_slashless component]

namespace Presets

theorem newName_entry {id : Nat} (bound : id < DevicePath.idBound) {name : String} (some : name ≠ "")
    (component : '/' ∉ name.toList) : newName ("/" ++ toString id ++ ":" ++ name) = name := by
  have chars : "/" ++ toString id ++ ":" ++ name = String.ofList ([] ++ '/' :: DevicePath.entry id name) := by
    apply String.toList_inj.mp
    simp [DevicePath.entry]
  have named : name.toList ≠ [] := by simpa using some
  unfold newName
  rw [chars, DevicePath.idName_entry bound named component]

/-- A name that looks like an id with a name behind it. -/
def Labelled (name : String) (label : String) : Prop := ∃ n, DevicePath.idName name = .ok (n, some label)

theorem newName_labelled {name label : String} (labelled : Labelled name label) : newName name = label := by
  obtain ⟨n, parsed⟩ := labelled
  unfold newName
  rw [parsed]

theorem Labelled.part {name label : String} (labelled : Labelled name label) :
    label.toList ≠ [] ∧ label.toList ⊆ name.toList := by
  obtain ⟨n, parsed⟩ := labelled
  have behind := (Text.cut_eq ':' (Text.lastPart '/' name.toList)).2
  unfold DevicePath.idName at parsed
  dsimp only at parsed
  split at parsed
  · cases parsed
  · simp only [Except.ok.injEq, Prod.mk.injEq, Option.map_eq_some_iff, Option.filter_eq_some_iff] at parsed
    obtain ⟨-, cs, ⟨cut, some⟩, rfl⟩ := parsed
    rw [cut, Option.getD_some] at behind
    rw [String.toList_ofList]
    refine ⟨by simpa using some, ?_⟩
    have inLast : cs ⊆ Text.lastPart '/' name.toList := by
      rw [behind]
      exact ((List.tail_sublist _).trans (List.dropWhile_sublist _)).subset
    intro c member
    have inPart := inLast member
    rw [Text.lastPart, List.mem_reverse] at inPart
    exact List.mem_reverse.mp ((List.takeWhile_sublist _).subset inPart)

variable {P : Type} [Port P]

def renameTo (id : Nat) (name : String) : Action (Device P) Unit := do
  let p ← pedal
  let preset ← read p ("/" ++ toString id) false
  store ("/" ++ toString id) (preset.named name).toMessage false

theorem rename_slot {id : Nat} (bound : id < DevicePath.idBound) {target : String} (fits : Fits target) :
    rename (P := P) ("/" ++ toString id) target = renameTo id (newName target) := by
  funext d
  rw [fits_iff] at fits
  rw [rename, DevicePath.id_slot bound, bind_of_ok (ofExcept_ok id d)]
  simp only [fits, Bool.false_eq_true, ↓reduceIte]
  rfl

section Slot

variable {d d₁ : Device P} {p : Pedal} (known : d.state = some (.pedal p)) {id : Nat} {preset : Preset}
  (found : read p ("/" ++ toString id) false d = .ok preset d₁) (name : String)

include known found

theorem renameTo_found : ∃ bank,
    d₁.state = some (.pedal { p with bank := some bank }) ∧ p.Names ("/" ++ toString id) ∧
      renameTo id name d = store ("/" ++ toString id) (preset.named name).toMessage false d₁ := by
  obtain ⟨id', index, -, parsed, inside, -⟩ := read_source found
  obtain ⟨⟨bank, state, -⟩, -⟩ := read_ok known parsed inside found
  refine ⟨bank, state, Pedal.names_of_index parsed inside, ?_⟩
  unfold renameTo
  rw [bind_of_ok (pedal_of_state known), bind_of_ok found]

theorem renameTo_wrote (bound : id < DevicePath.idBound) (blank : ' ' ∈ preset.firstLine.toList)
    (short : (preset.named name).toMessage.length ≤ maxLength) :
    Wrote (dumpOf p.deviceId [(preset.named name).inSlot id]) d₁ (renameTo id name d) := by
  obtain ⟨bank, state, names, same⟩ := renameTo_found known found name
  obtain ⟨id', index, parsed, inside⟩ := names.exists_index
  have encoded : retarget (preset.named name).toMessage p.deviceId id =
      .ok (dumpOf p.deviceId [(preset.named name).inSlot id]) := by
    rw [toMessage_eq] at short ⊢
    exact retarget_dumpOf blank short
  have targets : Pedal.Targets { p with bank := some bank } ("/" ++ toString id)
      (preset.named name).toMessage index (dumpOf p.deviceId [(preset.named name).inSlot id]) := by
    rw [DevicePath.id_slot bound] at parsed
    cases parsed
    exact ⟨id, DevicePath.id_slot bound, inside, encoded⟩
  rw [same]
  exact store_wrote false state targets

theorem renameTo_long (long : maxLength < (preset.named name).toMessage.length) :
    ∃ text, renameTo id name d = .error (.badMessage text) d₁ := by
  obtain ⟨bank, state, names, same⟩ := renameTo_found known found name
  have unstorable : ¬ Storable (preset.named name).toMessage :=
    fun storable => absurd storable.window.2 (Nat.not_le.mpr long)
  rw [same]
  exact store_unstorable state names unstorable false

end Slot

def Dumped (p : Pedal) : Prop :=
  ∀ bank, p.bank = some bank → ∀ preset ∈ bank, ∃ dump, preset ∈ Preset.ofDump dump

theorem read_legible {d d₁ : Device P} {p : Pedal} (dumped : Dumped p) {path : String} {watched : Bool}
    {preset : Preset} (found : read p path watched d = .ok preset d₁) : preset.Legible := by
  obtain ⟨id, index, bank, -, -, slot, ⟨kept, -⟩ | ⟨-, banked⟩⟩ := read_source found
  · obtain ⟨dump, member⟩ := dumped bank kept preset (List.mem_of_getElem? slot)
    exact legible_of_mem_ofDump member
  · obtain ⟨dump, rfl⟩ := bulkRead_dumped banked
    exact legible_of_mem_ofDump (List.mem_of_getElem? slot)

theorem name_line {preset : Preset} (legible : preset.Legible) {name : String}
    (fits : ∀ c ∈ name.toList, Text.isControl c = false) (device : UInt8) (id : Nat) :
    (Preset.linesOf (dumpOf device [(preset.named name).inSlot id]))[6]? =
      some (String.ofList (name.toList.take maxNameLength)) := by
  have sent : ((preset.named name).inSlot id).Legible := (legible.named fits).inSlot id
  have first : (Preset.ofDump (dumpOf device [(preset.named name).inSlot id]))[0]? =
      some ((preset.named name).inSlot id) := by
    rw [ofDump_single sent]
    rfl
  exact Preset.name_of_ofLines first

end Presets

open Presets

/-- A rename to the path of the slot with a name behind it comes to the same as a rename to that
name, but for a name that looks itself like an id with a label: given alone it stands for its label.
The preset found in the slot is sent there under the name, unless it is too long for that. -/
theorem rename_targets_agree {P : Type} [Port P] {p : Pedal} {m : Mount P} (serves : Serves p m)
    (dumped : Dumped p) {id : Nat} (bound : id < DevicePath.idBound) {name : String} (nonempty : name ≠ "")
    (fits : ∀ c ∈ name.toList, Text.isControl c = false) (component : '/' ∉ name.toList) :
    let slot := "/preset/" ++ toString id
    Mount.rename slot (slot ++ ":" ++ name) m = Mount.onDevice (renameTo id name) m ∧
    ((∀ label, ¬ Labelled name label) → Mount.rename slot name m = Mount.onDevice (renameTo id name) m) ∧
    (∀ label, Labelled name label → Mount.rename slot name m = Mount.onDevice (renameTo id label) m) ∧
    ∀ preset d, read p ("/" ++ toString id) false m.device = .ok preset d →
      ' ' ∈ preset.firstLine.toList →
      let message := dumpOf p.deviceId [(preset.named name).inSlot id]
      ((preset.named name).toMessage.length ≤ maxLength →
        Wrote message d (renameTo id name m.device) ∧
          (Preset.linesOf message)[6]? = some (String.ofList (name.toList.take maxNameLength))) ∧
      (maxLength < (preset.named name).toMessage.length →
        ∃ text, renameTo id name m.device = .error (.badMessage text) d) := by
  intro slot
  have digits : '/' ∉ (toString id).toList := Text.Decimal.not_mem_toString (by decide)
  have named : Slots.inside slot = .ok ("/" ++ toString id) := Slots.inside_preset digits
  have renamed {target inner : String} (place : m.inside target = inner) {text : String}
      (asked : newName inner = text) (given : text.toList ≠ []) (part : text.toList ⊆ name.toList) :
      Mount.rename slot target m = Mount.onDevice (renameTo id text) m := by
    have fit : Fits inner := by
      unfold Fits
      rw [asked]
      exact ⟨given, fun c member => fits c (part member)⟩
    rw [serves.rename_eq named, place, rename_slot bound fit, asked]
  have whole : name.toList ≠ [] := by simpa using nonempty
  have bare : m.inside name = name := by rw [serves.inside_eq, Slots.inside_bare component]
  refine ⟨?_, ?_, ?_, ?_⟩
  · have last : '/' ∉ (toString id ++ ":" ++ name).toList := by
      simp only [String.toList_append, List.mem_append, not_or]
      exact ⟨⟨digits, by decide⟩, component⟩
    have path : slot ++ ":" ++ name = "/preset/" ++ (toString id ++ ":" ++ name) := by
      simp only [slot, String.append_assoc]
    have place : m.inside (slot ++ ":" ++ name) = "/" ++ toString id ++ ":" ++ name := by
      rw [path, serves.inside_eq, Slots.inside_preset last]
      simp only [String.append_assoc]
    exact renamed place (newName_entry bound nonempty component) whole (List.Subset.refl _)
  · intro alone
    have same := newName_slashless component fun id label parsed => alone label ⟨id, parsed⟩
    exact renamed bare same whole (List.Subset.refl _)
  · intro label labelled
    obtain ⟨given, part⟩ := labelled.part
    exact renamed bare (newName_labelled labelled) given part
  · intro preset d found blank message
    refine ⟨?_, renameTo_long serves.state found name⟩
    intro short
    exact ⟨renameTo_wrote serves.state found name bound blank short,
      name_line (read_legible dumped found) fits p.deviceId id⟩

def leadMount : Mount VirtualPort where
  device := leadPedal
  volumes := [presetVolume VirtualPort]

def sentAs (target : String) : Bytes :=
  (final (Mount.rename "/preset/0" target leadMount)).device.link.accepted

theorem coloned_name_agrees :
    let name := "My:Lead and Brass"
    Mount.rename "/preset/0" "/preset/0:My:Lead and Brass" leadMount =
      Mount.rename "/preset/0" name leadMount ∧
    answer (Mount.rename "/preset/0" name leadMount) = .ok () ∧
    sentAs name = dumpOf 5 [(lead.named name).inSlot 0] ∧
    (Preset.linesOf (sentAs name))[6]? = some "My:Lead and Bras" := by
  intro name
  have serves : Serves { threePresets with bank := some [lead] } leadMount := ⟨rfl, rfl⟩
  have plainText : name.toList.any Text.isControl = false := by decide +kernel
  have fits : ∀ c ∈ name.toList, Text.isControl c = false := by simpa using plainText
  have dumped : Dumped { threePresets with bank := some [lead] } := by
    intro bank kept preset member
    cases kept
    cases List.mem_singleton.mp member
    exact ⟨lead.toMessage, by decide +kernel⟩
  have first : 0 < DevicePath.idBound := by decide
  obtain ⟨path, bare, -, message⟩ :=
    rename_targets_agree serves dumped first (by decide) fits (by decide +kernel)
  have slot : "/preset/" ++ toString 0 = "/preset/0" := by decide +kernel
  have behind : "/preset/0" ++ ":" ++ name = "/preset/0:My:Lead and Brass" := by decide +kernel
  have alone : ∀ label, ¬ Labelled name label := by
    rintro label ⟨n, parsed⟩
    have noNumber : DevicePath.idName name = .error (.invalidPath name) := by decide +kernel
    rw [noNumber] at parsed
    cases parsed
  have found : read { threePresets with bank := some [lead] } ("/" ++ toString 0) false leadPedal =
      .ok lead leadPedal := by
    have inside : Pedal.index { threePresets with bank := some [lead] } 0 ("/" ++ toString 0) = .ok 0 := by
      decide +kernel
    rw [read_kept (DevicePath.id_slot (by decide)) inside rfl]
    rfl
  obtain ⟨wrote, line⟩ := (message lead leadPedal found (by decide +kernel)).1 (by decide +kernel)
  replace bare := bare alone
  rw [slot] at path bare
  rw [behind] at path
  have succeeded : answer (renameTo 0 name leadPedal) = .ok () := by decide +kernel
  have sent : sentAs name = dumpOf 5 [(lead.named name).inSlot 0] := by
    unfold sentAs
    rw [bare, Mount.final_onDevice]
    change (final (renameTo 0 name leadPedal)).link.accepted = _
    change Wrote _ leadPedal (renameTo 0 name leadPedal) at wrote
    generalize renameTo 0 name leadPedal = result at wrote succeeded
    cases wrote with
    | whole accepted => exact accepted
    | part => cases succeeded
  refine ⟨path.trans bare.symm, ?_, sent, ?_⟩
  · rw [bare, Mount.onDevice, answer_within]
    exact succeeded
  · rw [sent]
    exact line.trans (by decide +kernel)

/-- A slash or a number before a colon makes the difference: of the first name the path keeps the
id, and the second is taken for a label when given alone. -/
theorem slashed_and_numbered_names_differ :
    sentAs "/preset/0:A/B" = dumpOf 5 [(lead.named "0:A/B").inSlot 0] ∧
    sentAs "A/B" = dumpOf 5 [(lead.named "A/B").inSlot 0] ∧
    sentAs "/preset/0:7:Solo" = dumpOf 5 [(lead.named "7:Solo").inSlot 0] ∧
    sentAs "7:Solo" = dumpOf 5 [(lead.named "Solo").inSlot 0] ∧
    sentAs "/preset/0:A/B" ≠ sentAs "A/B" ∧ sentAs "/preset/0:7:Solo" ≠ sentAs "7:Solo" := by
  decide +kernel

end MidiStorage.Eventide
