import MidiStorage.Proofs.Detection.Isolation
import MidiStorage.Registry

namespace MidiStorage

open MidiStorage.Action

variable {P : Type} [Port P]

namespace Link

theorem transact_open (request : Bytes) (timeout : Nat) (watched : Bool) :
    Preserves (·.closed = false) (transact request timeout watched : Action (Link P) Bytes) :=
  transact_preserves Detection.open_lasting (fun _ _ same => same) (fun _ _ same => same) _ _ _

end Link

namespace Eventide

theorem inquire_open : Preserves (·.closed = false) (inquire : Action (Link P) Bytes) := by
  refine (Preserves.get _).bind fun l => (Link.transact_open _ _ _).outcome.bind ?_
  intro result
  cases result with
  | ok reply => exact Preserves.pure _ _
  | error e => cases e <;> exact Preserves.throw _ _

theorem ask_open (type : QueryType) (key : String) :
    Preserves (·.closed = false) (ask type key : Action (Link P) Bytes) := by
  refine (Preserves.get _).bind fun l => (Link.transact_open _ _ _).bind ?_
  intro reply
  dsimp only
  split_ifs with short
  · exact Preserves.throw _ _
  · exact Preserves.pure _ _

theorem identify_open :
    Preserves (·.closed = false) (identify : Action (Link P) _) := by
  have drains : Preserves (·.closed = false) (Link.drain : Action (Link P) Unit) :=
    Link.drain_preserves (fun _ same => same) Detection.open_lasting.run Detection.open_lasting.read
  refine drains.bind fun _ => inquire_open.bind fun _ => (Preserves.ofExcept _ _).bind fun _ => ?_
  refine (ask_open _ _).bind fun version => (ask_open _ _).bind fun switches => ?_
  refine (Preserves.ofExcept _ _).bind fun kind => (ask_open _ _).bind fun low => ?_
  exact (ask_open _ _).bind fun high => (Preserves.ofExcept _ _).bind fun _ => Preserves.pure _ _

end Eventide

theorem registry_keepsOpen (d : Dialect P) (known : d ∈ registry P) : Detection.KeepsOpen d := by
  rcases List.mem_cons.mp known with rfl | known
  · have identifies : Preserves (·.device.link.closed = false)
        (Mount.onLink (P := P) Eventide.identify) := by
      intro m before
      rw [Mount.final_onLink]
      exact Eventide.identify_open m.device.link before
    exact identifies.bind fun _ => Preserves.modify fun _ same => same
  · rw [List.mem_singleton] at known
    subst known
    exact Preserves.modify fun _ same => same

open Mount in
theorem registry_confined (d : Dialect P) (known : d ∈ registry P) : Confined d.handshake := by
  rcases List.mem_cons.mp known with rfl | known
  · refine Confined.bind (Confined.onLink _) ?_
    rintro ⟨identity, pedal⟩
    let name := pedal.kind.label ++ " " ++ identity.versionString
    exact (Confined.modifyDevice (f := (·.setIdentity identity)) fun _ => rfl).bind fun _ =>
      (Confined.modifyDevice (f := (·.setName name)) fun _ => rfl).bind fun _ =>
      (Confined.setVolumes [Eventide.presetVolume P]).bind fun _ =>
      Confined.modifyDevice (f := (·.setState (.pedal pedal))) fun _ => rfl
  · rw [List.mem_singleton] at known
    subst known
    let name (port : String) := if port.isEmpty then "MIDI device" else "MIDI device " ++ port
    have split : (Dialect.fallback P).handshake = (get >>= fun m =>
        (modify fun m' => { m' with device := m'.device.setName (name m.device.link.name) }) >>=
          fun _ => modify (·.setVolumes [])) := rfl
    rw [split]
    exact Confined.get.bind fun m =>
      (Confined.modifyDevice (f := (·.setName (name m.device.link.name))) fun _ => rfl).bind fun _ =>
      Confined.setVolumes []

/-- A search among the known dialects closes the port unless it finds one that matches, and what it
finds has the bits of the volumes mounted there. -/
theorem detect_known (wanted : Option String) (watched : Bool) (link : Link P) (before : link.closed = false) :
    let outcome := Detection.detect (registry P) wanted watched link
    (outcome.link.closed = true ↔ ∀ session, outcome ≠ .found session) ∧
      ∀ session, outcome = .found session → session.mount.Coherent := by
  intro outcome
  constructor
  · let s : Detection.Search P := ⟨registry P, wanted, watched, Detection.drained (Mount.ofLink link)⟩
    exact Detection.Search.closed_iff (s := s) (Detection.drained_open before) registry_keepsOpen
  · intro session found
    obtain ⟨d, known, -, m, fresh, matched⟩ := Detection.found_fresh found
    exact (registry_confined d known).coherent.of_ok fresh.coherent matched

end MidiStorage
