import MidiStorage.Proofs.Detection.Register
import MidiStorage.Proofs.Transfer.Replies
import MidiStorage.Rehearsal.Dialect

namespace MidiStorage.Rehearsal

open MidiStorage.Action

def LogEntry.number? : LogEntry → Option Nat
  | .handshake n .. => some n
  | _ => none

namespace Rig

def note (r : Rig) (entry : LogEntry) : Rig := { r with log := r.log ++ [entry] }

def picked {E : Type} (pick : LogEntry → Option E) (r : Rig) : List E := r.log.filterMap pick

theorem read_log (r : Rig) : (Port.read r).port.log = r.log := by
  obtain ⟨port, log⟩ := r
  cases port <;> rfl

theorem write_log (r : Rig) (bytes : Bytes) : (Port.write r bytes).port.log = r.log := by
  obtain ⟨port, log⟩ := r
  cases port <;> rfl

theorem picked_of_log {E : Type} (pick : LogEntry → Option E) {r r' : Rig} (same : r.log = r'.log) :
    r.picked pick = r'.picked pick := by
  unfold picked
  rw [same]

theorem picked_note {E : Type} (pick : LogEntry → Option E) (r : Rig) (entry : LogEntry) :
    (r.note entry).picked pick = r.picked pick ++ (pick entry).toList := by
  unfold picked note
  rw [List.filterMap_append]
  cases picked : pick entry <;> simp [picked]

end Rig

namespace DialectScript

def meeting (s : DialectScript) (m : Mount Rig) : LogEntry :=
  .handshake s.number s.name m.device.info.name m.device.info.storage m.volumes.length
    m.device.text.toOption

def entered (s : DialectScript) (m : Mount Rig) : Mount Rig :=
  let link := { m.device.link with port := m.device.link.port.note (s.meeting m) }
  { m with device := { m.device with link } }

def proceed (s : DialectScript) : Action (Mount Rig) Unit :=
  (if s.cancels then Mount.onLink (Link.modifyJob Job.cancel) else pure ()) >>= fun _ =>
  s.request.forM ask >>= fun _ =>
  change s.deviceName (fun m name => { m with device := m.device.setName name }) >>= fun _ =>
  change s.storage (fun m storage => { m with device := m.device.setStorage storage }) >>= fun _ =>
  change s.text (fun m text => { m with device := m.device.setState (.text text) }) >>= fun _ =>
  change s.volumes Mount.setVolumes >>= fun _ =>
  s.failure.elim (pure ()) throw

theorem handshake_eq (s : DialectScript) : s.handshake = (s.logMeeting >>= fun _ => s.proceed) := by
  obtain ⟨number, name, cancels, request, deviceName, storage, text, volumes, failure⟩ := s
  cases cancels <;> cases failure <;> rfl

theorem change_preserves {α : Type} {I : Link Rig → Prop} {f : Mount Rig → α → Mount Rig}
    (apart : ∀ m x, (f m x).device.link = m.device.link) (value : Option α) :
    Preserves (I ·.device.link) (change value f) := by
  cases value with
  | none => exact Preserves.pure _ ()
  | some x =>
    refine Preserves.modify ?_
    intro m before
    rwa [apart]

theorem final_handshake {I : Link Rig → Prop} (lasting : Link.Lasting I)
    (write : ∀ bytes, Preserves I (Link.writeOnce bytes))
    (cached : ∀ l cache, I l → I { l with cache })
    (noted : ∀ l reply, I l → I { l with port := l.port.note (.reply reply) }) (s : DialectScript)
    {m : Mount Rig} (met : I (s.entered m).device.link) :
    I (final (s.handshake m)).device.link := by
  have onLink {α : Type} {a : Action (Link Rig) α} (inner : Preserves I a) :
      Preserves (I ·.device.link) (Mount.onLink a) :=
    Preserves.within (fun _ _ => rfl) (J := fun d : Device Rig => I d.link)
      (Preserves.within (fun _ _ => rfl) inner)
  have cancelling : Preserves (I ·.device.link)
      (if s.cancels then Mount.onLink (Link.modifyJob Job.cancel) else pure ()) := by
    split
    · exact onLink (Preserves.modify fun l before => lasting.run l _ before)
    · exact Preserves.pure _ ()
  have asking (request : Bytes) : Preserves (I ·.device.link) (ask request) := by
    refine (Preserves.get _).bind fun m => ?_
    refine (onLink (Link.transact_preserves lasting write cached request _ false)).bind ?_
    intro reply
    exact Preserves.modify fun m before => noted m.device.link reply before
  have requesting : Preserves (I ·.device.link) (s.request.forM ask) := by
    cases s.request with
    | none => exact Preserves.pure _ ()
    | some request => exact asking request
  have ending : Preserves (I ·.device.link)
      (s.failure.elim (pure ()) throw : Action (Mount Rig) Unit) := by
    cases s.failure with
    | none => exact Preserves.pure _ ()
    | some e => exact Preserves.throw _ e
  have rest := cancelling.bind fun _ => requesting.bind fun _ =>
    (change_preserves (I := I) (fun _ _ => rfl) s.deviceName
      (f := fun m name => { m with device := m.device.setName name })).bind fun _ =>
    (change_preserves (I := I) (fun _ _ => rfl) s.storage
      (f := fun m storage => { m with device := m.device.setStorage storage })).bind fun _ =>
    (change_preserves (I := I) (fun _ _ => rfl) s.text
      (f := fun m text => { m with device := m.device.setState (.text text) })).bind fun _ =>
    (change_preserves (I := I) (fun _ _ => rfl) s.volumes (f := Mount.setVolumes)).bind fun _ =>
    ending
  have logged : s.logMeeting m = .ok () (s.entered m) := rfl
  rw [handshake_eq, bind_of_ok logged]
  exact rest (s.entered m) met

theorem picked_handshake {E : Type} {pick : LogEntry → Option E}
    (replies : ∀ bytes, pick (.reply bytes) = none) (s : DialectScript) (m : Mount Rig) :
    (final (s.handshake m)).device.link.port.picked pick =
      m.device.link.port.picked pick ++ (pick (s.meeting m)).toList := by
  refine final_handshake (I := fun l => l.port.picked pick =
    m.device.link.port.picked pick ++ (pick (s.meeting m)).toList) ?_ ?_ ?_ ?_ s
    (Rig.picked_note pick m.device.link.port (s.meeting m))
  · exact ⟨fun _ _ same => same, fun l same => (Rig.picked_of_log pick l.port.read_log).trans same,
      fun _ _ same => same, fun _ same => same, fun _ same => same⟩
  · exact fun bytes l same => (Rig.picked_of_log pick (l.port.write_log bytes)).trans same
  · exact fun _ _ same => same
  · intro l reply same
    rw [Rig.picked_note, replies, Option.toList_none, List.append_nil]
    exact same

theorem keepsOpen (s : DialectScript) : Detection.KeepsOpen s.dialect := by
  intro m before
  exact final_handshake (I := (·.closed = false)) Detection.open_lasting (fun _ _ same => same)
    (fun _ _ same => same) (fun _ _ same => same) s before

theorem register {E : Type} {pick : LogEntry → Option E} {entry : Nat → Mount Rig → E}
    (replies : ∀ bytes, pick (.reply bytes) = none) {scripts : List DialectScript}
    (meetings : ∀ (k : Nat) (s : DialectScript) (m : Mount Rig), scripts[k]? = some s →
      pick (s.meeting m) = some (entry k m)) :
    Detection.Register (scripts.map dialect) (Rig.picked pick) entry where
  read r := Rig.picked_of_log pick r.read_log
  handshake k d m here := by
    rw [List.getElem?_map] at here
    obtain ⟨s, found, rfl⟩ := Option.map_eq_some_iff.mp here
    have logged := s.picked_handshake replies m
    rw [meetings k s m found] at logged
    exact logged

end DialectScript

def silentRig : Link Rig :=
  Link.ofPort "virtual:0" { port := .virtual (VirtualPort.silent "virtual") } Timing.standard

end MidiStorage.Rehearsal
