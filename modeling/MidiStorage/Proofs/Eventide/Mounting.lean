import MidiStorage.Eventide.Dialect
import MidiStorage.Proofs.Browsing.Dispatch

namespace MidiStorage.Eventide

open MidiStorage.Action

namespace Slots

def inside (path : String) : Except Failure String :=
  match DevicePath.split path with
  | .error e => .error e
  | .ok (volume, inner) => if volume = "preset" then .ok inner else .error (.invalidPath path)

theorem isRoot_of_inside {path inner : String} (named : inside path = .ok inner) :
    DevicePath.isRoot path = false := by
  rw [← Bool.not_eq_true, Mount.isRoot_iff]
  intro slashes
  unfold inside at named
  have lost : ∃ e, DevicePath.split path = .error e := by
    cases chars : path.toList with
    | nil =>
      unfold DevicePath.split
      rw [chars]
      exact ⟨_, rfl⟩
    | cons c rest =>
      rw [chars, List.forall_mem_cons] at slashes
      obtain ⟨rfl, slashes⟩ := slashes
      have ends : ∀ c ∈ rest.head?, c = '/' := fun c head => slashes c (List.mem_of_mem_head? head)
      have parts : path.toList = '/' :: ([] ++ rest) := chars
      rw [DevicePath.split_apply parts List.not_mem_nil ends, if_pos rfl]
      exact ⟨_, rfl⟩
  obtain ⟨e, lost⟩ := lost
  rw [lost] at named
  cases named

end Slots

variable {P α : Type} [Port P]

/-- A device with the volume of presets, about whose pedal `p` is known. -/
structure Serves (p : Pedal) (m : Mount P) : Prop where
  volumes : m.volumes = [presetVolume P]
  state : m.device.state = some (.pedal p)

def Offered (op : Operation) : Prop := op ∈ [Operation.list, .download, .upload, .rename]

instance (op : Operation) : Decidable (Offered op) := inferInstanceAs (Decidable (_ ∈ _))

theorem allows_iff_offered (op : Operation) : (presetVolume P).capabilities.allows op = true ↔ Offered op :=
  List.contains_iff_mem

theorem on_presetVolume (r : Request α) : r.on (presetVolume P) = r := by
  -- a rename stays one, as there is no move here
  cases r <;> rfl

namespace Serves

variable {p : Pedal} {m : Mount P} (serves : Serves p m)

include serves

theorem resolve_eq (path : String) :
    m.resolve path = (Slots.inside path).map fun inner => (presetVolume P, inner) := by
  unfold Mount.resolve Mount.volumeNamed? Slots.inside
  rw [serves.volumes]
  cases DevicePath.split path with
  | error e => rfl
  | ok pair =>
    by_cases same : pair.1 = "preset"
    · have found : (presetVolume P).name = pair.1 := same.symm
      simp only [List.find?_cons, found, decide_true, if_pos same]
      rfl
    · have lost : (presetVolume P).name ≠ pair.1 := fun found => same found.symm
      simp only [List.find?_cons, lost, decide_false, List.find?_nil, if_neg same]
      rfl

theorem inside_eq (path : String) :
    m.inside path = match Slots.inside path with
      | .ok inner => inner
      | .error _ => path := by
  rw [Mount.inside, serves.resolve_eq]
  cases Slots.inside path <;> rfl

/-- A new name is taken as it is if it leads nowhere, and otherwise leads into the same volume. -/
theorem destined_rename (target : String) : m.destined (presetVolume P) .rename (some target) = .ok () := by
  have resolved := serves.resolve_eq target
  dsimp only [Mount.destined]
  rw [resolved]
  cases Slots.inside target with
  | error e => exact if_pos rfl
  | ok inner => exact if_pos rfl

theorem route_eq (r : Request α) :
    m.route r = match Slots.inside r.source with
      | .error e => .error e
      | .ok _ => if Offered r.operation then .ok (presetVolume P)
        else .error (.notSupported r.operation.name) := by
  have resolved := serves.resolve_eq r.source
  cases named : Slots.inside r.source with
  | error e =>
    rw [named] at resolved
    unfold Mount.route
    rw [resolved]
    rfl
  | ok inner =>
    rw [named] at resolved
    rw [Mount.route_of_resolve resolved, on_presetVolume]
    by_cases offered : Offered r.operation
    · have destined : m.destined (presetVolume P) r.operation r.target? = .ok () := by
        cases r with
        | rename source target => exact serves.destined_rename target
        | list | download | upload => rfl
        | _ => simp [Offered, Request.operation] at offered
      rw [if_pos ((allows_iff_offered _).mpr offered), destined, if_pos offered]
      rfl
    · rw [if_neg (mt (allows_iff_offered _).mp offered), if_neg offered]

theorem browse_eq {r : Request α} {inner : String} (named : Slots.inside r.source = .ok inner)
    (offered : Offered r.operation) :
    r.browse m = r.around (presetVolume P) ((r.map m.inside).perform (presetVolume P)) m := by
  have below : r.operation = .list → DevicePath.isRoot r.source = false :=
    fun _ => Slots.isRoot_of_inside named
  rw [Mount.browse_eq m r below, serves.route_eq, named]
  simp only [if_pos offered, on_presetVolume]

theorem browse_not_offered {r : Request α} {inner : String} (named : Slots.inside r.source = .ok inner)
    (missing : ¬ Offered r.operation) :
    r.browse m = .error (.notSupported r.operation.name) m := by
  have below : r.operation = .list → DevicePath.isRoot r.source = false :=
    fun _ => Slots.isRoot_of_inside named
  rw [Mount.browse_eq m r below, serves.route_eq, named]
  simp only [if_neg missing]

theorem browse_lost {r : Request α} {e : Failure} (lost : Slots.inside r.source = .error e)
    (below : r.operation = .list → DevicePath.isRoot r.source = false) : r.browse m = .error e m := by
  rw [Mount.browse_eq m r below, serves.route_eq, lost]

variable {path inner : String} (named : Slots.inside path = .ok inner)

include named

theorem list_eq : Mount.list path m = Mount.onDevice (Presets.list inner) m := by
  have listed := serves.browse_eq (r := .list path) named (show Offered .list by decide)
  rw [Request.map, serves.inside_eq, named] at listed
  exact listed

theorem download_eq :
    Mount.download path m = Mount.transfer (presetVolume P).options (Presets.download inner) m := by
  have downloaded := serves.browse_eq (r := .download path) named (show Offered .download by decide)
  rw [Request.map, serves.inside_eq, named] at downloaded
  exact downloaded

theorem upload_eq (data : Bytes) :
    Mount.upload path data m = Mount.transfer (presetVolume P).options (Presets.upload inner data) m := by
  have uploaded := serves.browse_eq (r := .upload path data) named (show Offered .upload by decide)
  rw [Request.map, serves.inside_eq, named] at uploaded
  exact uploaded

theorem rename_eq (target : String) :
    Mount.rename path target m = Mount.onDevice (Presets.rename inner (m.inside target)) m := by
  have renamed := serves.browse_eq (r := .rename path target) named (show Offered .rename by decide)
  rw [Request.map, serves.inside_eq path, named] at renamed
  exact renamed

end Serves

end MidiStorage.Eventide
