import MidiStorage.Proofs.Cache.Deeds
import MidiStorage.Proofs.Eventide.BulkReads

namespace MidiStorage

open MidiStorage.Action

variable {P α : Type}

def Device.bank? (d : Device P) : Option (List Eventide.Preset) :=
  match d.state with
  | some (.pedal p) => p.bank
  | _ => none

theorem Device.bank_of_state {d : Device P} {p : Eventide.Pedal} (known : d.state = some (.pedal p)) :
    d.bank? = p.bank := by
  unfold bank?
  rw [known]

theorem Device.onLink_apart {J : Device P → Prop} (kept : ∀ d link, J d → J { d with link })
    (a : Action (Link P) α) : Preserves J (onLink a) := Preserves.apart kept a

namespace Mount

def withRun (m : Mount P) (run : Run) : Mount P := { m with device := m.device.withRun run }

def after (m : Mount P) (a : Action (Device P) α) (first last : Run) : Mount P :=
  { m with device := (final (a (m.device.withRun first))).withRun last }

theorem final_onDevice_after (a : Action (Device P) α) (m : Mount P) :
    final (onDevice a m) = m.after a m.device.link.run (final (a m.device)).link.run := final_onDevice a m

theorem final_transfer (options : VolumeOptions) (method : Action (Device P) α) (m : Mount P) :
    final (transfer options method m) = m ∨
      ∃ first last, final (transfer options method m) = m.after method first last := by
  by_cases active : ¬ m.device.Cancelled
  · right
    obtain ⟨first, handed⟩ : ∃ first, m.device.handed options = m.device.withRun first := by
      unfold Device.handed
      split_ifs
      · exact ⟨_, rfl⟩
      · exact ⟨m.device.link.run, rfl⟩
    refine ⟨first, ?_⟩
    unfold after
    rw [← handed]
    cases run : method (m.device.handed options) with
    | error e d =>
      rw [transfer_of_error active run]
      exact ⟨d.link.run, rfl⟩
    | ok x d =>
      by_cases cancelled : d.Cancelled
      · rw [transfer_of_interrupted active run cancelled]
        exact ⟨d.link.run, rfl⟩
      · rw [transfer_of_ok active run cancelled]
        unfold Device.completed
        split_ifs
        · exact ⟨_, rfl⟩
        · exact ⟨d.link.run, rfl⟩
  · left
    rw [transfer_of_cancelled (not_not.mp active)]
    rfl

end Mount

namespace Eventide

open Presets

/-- What a request makes of the mount: it is left as it was, but for its job and its clock, or one
operation on its presets is done. A listing of the volume is always done. -/
inductive Leaves [Port P] (m : Mount P) : {α : Type} → Request α → Mount P → Prop
  | untouched {α : Type} {r : Request α} (run : Run)
    (elsewhere : r.operation = .list → ∀ inner, Slots.inside r.source ≠ .ok inner) :
    Leaves m r (m.withRun run)
  | list {path inner : String} (named : Slots.inside path = .ok inner) (first last : Run) :
    Leaves m (.list path) (m.after (Presets.list inner) first last)
  | download {path inner : String} (named : Slots.inside path = .ok inner) (first last : Run) :
    Leaves m (.download path) (m.after (Presets.download inner) first last)
  | upload {path inner : String} (data : Bytes) (named : Slots.inside path = .ok inner) (first last : Run) :
    Leaves m (.upload path data) (m.after (Presets.upload inner data) first last)
  | rename {source inner target : String} (named : Slots.inside source = .ok inner) (first last : Run) :
    Leaves m (.rename source target) (m.after (Presets.rename inner (m.inside target)) first last)

section Leaves

variable [Port P] {m m' : Mount P} {p : Pedal} {r : Request α}

theorem Leaves.of_transfer {options : VolumeOptions} {method : Action (Device P) α}
    (transfers : r.Transfers) (leaves : ∀ first last, Leaves m r (m.after method first last)) :
    Leaves m r (final (Mount.transfer options method m)) := by
  rcases Mount.final_transfer options method m with same | ⟨first, last, same⟩
  · rw [same]
    refine .untouched m.device.link.run ?_
    intro listing
    rcases transfers with other | other <;> rw [other] at listing <;> cases listing
  · rw [same]
    exact leaves first last

theorem Serves.leaves (serves : Serves p m) (r : Request α) : Leaves m r (final (r.browse m)) := by
  have still (elsewhere : r.operation = .list → ∀ inner, Slots.inside r.source ≠ .ok inner) :
      Leaves m r m := .untouched m.device.link.run elsewhere
  cases named : Slots.inside r.source with
  | error e =>
    have lost : r.operation = .list → ∀ inner, Slots.inside r.source ≠ .ok inner := by
      intro _ inner found
      rw [named] at found
      cases found
    by_cases below : r.operation = .list → DevicePath.isRoot r.source = false
    · rw [serves.browse_lost named below]
      exact still lost
    · obtain ⟨listing, root⟩ := Classical.not_imp.mp below
      cases r with
      | list path =>
        have listed : (Request.list path).browse m = _ := Mount.list_of_root (Bool.not_eq_false _ |>.mp root)
        rw [listed]
        exact still lost
      | _ => cases listing
  | ok inner =>
    by_cases offered : Offered r.operation
    · cases r with
      | list path =>
        have listed : (Request.list path).browse m = _ := serves.list_eq named
        rw [listed, Mount.final_onDevice_after]
        exact .list named _ _
      | download path =>
        have downloaded : (Request.download path).browse m = _ := serves.download_eq named
        rw [downloaded]
        exact .of_transfer (.inl rfl) (.download named)
      | upload path data =>
        have uploaded : (Request.upload path data).browse m = _ := serves.upload_eq named data
        rw [uploaded]
        exact .of_transfer (.inr rfl) (.upload data named)
      | rename source target =>
        have renamed : (Request.rename source target).browse m = _ := serves.rename_eq named target
        rw [renamed, Mount.final_onDevice_after]
        exact .rename named _ _
      | _ => simp [Offered, Request.operation] at offered
    · rw [serves.browse_not_offered named offered]
      refine still fun listing => ?_
      rw [listing] at offered
      exact absurd (show Offered .list by decide) offered

theorem Leaves.preserves {J : Device P → Prop} (storing : Storing J)
    (pause : ∀ watched duration, Preserves J (Device.onLink (Link.pause watched duration)))
    (leaves : Leaves m r m') (before : J m.device) : J m'.device := by
  have moved {d : Device P} (run : Run) (holds : J d) : J (d.withRun run) := storing.run d run holds
  cases leaves with
  | untouched run => exact moved run before
  | list named first last => exact moved last (storing.toReading.list pause _ _ (moved first before))
  | download named first last => exact moved last (storing.toReading.download _ _ (moved first before))
  | upload data named first last => exact moved last (storing.upload _ data _ (moved first before))
  | rename named first last => exact moved last (storing.rename _ _ _ (moved first before))

theorem known_storing : Storing (P := P) fun d => ∃ p, d.state = some (.pedal p) where
  run _ _ known := known
  exchange _ := Device.onLink_apart (fun _ _ known => known) _
  keep _ _ _ _ := ⟨_, rfl⟩
  transmit _ _ := Device.onLink_apart (fun _ _ known => known) _
  listen _ := Device.onLink_apart (fun _ _ known => known) _
  refresh _ _ _ _ _ := ⟨_, rfl⟩

theorem banked_reading : Reading (P := P) (·.bank?.isSome) where
  run _ _ kept := kept
  exchange _ := Device.onLink_apart (fun _ _ kept => kept) _
  keep _ _ _ _ := rfl

theorem Leaves.serves (serves : Serves p m) (leaves : Leaves m r m') : ∃ p', Serves p' m' := by
  obtain ⟨p', known⟩ := leaves.preserves known_storing
    (fun _ _ => Device.onLink_apart (fun _ _ known => known) _) ⟨p, serves.state⟩
  refine ⟨p', ?_, known⟩
  cases leaves <;> exact serves.volumes

theorem Leaves.bank_kept (unsent : r.operation ≠ .upload ∧ r.operation ≠ .rename) (leaves : Leaves m r m')
    (kept : m.device.bank?.isSome) : m'.device.bank?.isSome := by
  cases leaves with
  | untouched => exact kept
  | list named first last =>
    exact banked_reading.list (fun _ _ => Device.onLink_apart (fun _ _ kept => kept) _) _ _ kept
  | download named first last => exact banked_reading.download _ _ kept
  | upload => exact absurd rfl unsent.1
  | rename => exact absurd rfl unsent.2

end Leaves

structure Visit where
  {α : Type}
  run : Run
  request : Request α

variable [Port P]

def visited (m : Mount P) (v : Visit) : Mount P := final (v.request.browse (m.withRun v.run))

def toured (m : Mount P) (visits : List Visit) : Mount P := visits.foldl visited m

section Visited

variable {m : Mount P} {p : Pedal}

theorem Leaves.of_withRun {m' : Mount P} {r : Request α} {run : Run} (leaves : Leaves (m.withRun run) r m') :
    Leaves m r m' := by
  cases leaves with
  | untouched run elsewhere => exact .untouched run elsewhere
  | list named first last => exact .list named first last
  | download named first last => exact .download named first last
  | upload data named first last => exact .upload data named first last
  | rename named first last => exact .rename named first last

theorem Serves.visited_leaves (serves : Serves p m) (v : Visit) : Leaves m v.request (visited m v) := by
  have arrived : Serves p (m.withRun v.run) := ⟨serves.volumes, serves.state⟩
  exact (arrived.leaves v.request).of_withRun

theorem Serves.on_tour_of {J : Mount P → Prop} (serves : Serves p m) {visits : List Visit}
    (step : ∀ v ∈ visits, ∀ p m, Serves p m → J m → J (visited m v)) (before : J m) :
    J (toured m visits) ∧ ∃ p', Serves p' (toured m visits) := by
  induction visits generalizing p m with
  | nil => exact ⟨before, p, serves⟩
  | cons v visits ih =>
    rw [List.forall_mem_cons] at step
    obtain ⟨p', served⟩ := (serves.visited_leaves v).serves serves
    exact ih served step.2 (step.1 p m serves before)

theorem Serves.on_tour (serves : Serves p m) (visits : List Visit) : ∃ p', Serves p' (toured m visits) :=
  (serves.on_tour_of (J := fun _ => True) (fun _ _ _ _ _ _ => trivial) trivial).2

theorem Serves.bank_on_tour (serves : Serves p m) {visits : List Visit}
    (unsent : ∀ v ∈ visits, v.request.operation ≠ .upload ∧ v.request.operation ≠ .rename)
    (kept : m.device.bank?.isSome) : (toured m visits).device.bank?.isSome :=
  (serves.on_tour_of (J := (·.device.bank?.isSome))
    (fun v member _ _ served kept => (served.visited_leaves v).bank_kept (unsent v member) kept) kept).1

end Visited

end Eventide

end MidiStorage
