import MidiStorage.Proofs.Detection.Rehearsed

namespace MidiStorage

open MidiStorage.Action

variable {P : Type}

namespace Mount

/-- Nothing is known, remembered or half heard. A mount has no dialect: only a session binds one. -/
structure Fresh (m : Mount P) : Prop where
  name : m.device.info.name = ""
  identity : m.device.info.identity = .unknown
  storage : m.device.info.storage = 0
  bits : m.device.info.volumes = 0
  volumes : m.volumes = []
  state : m.device.state = none
  replies : m.device.link.cache.entries = []
  queue : m.device.link.framer.queue = []
  between : m.device.link.framer.isReceiving = false

theorem fresh_forget {m : Mount P} (empty : m.device.link.framer = {}) : m.forget.Fresh := by
  refine ⟨rfl, rfl, rfl, rfl, rfl, rfl, rfl, ?_, ?_⟩
  · exact congrArg Framer.queue empty
  · exact congrArg Framer.isReceiving empty

def Coherent (m : Mount P) : Prop :=
  ∀ i, m.device.info.volumes.testBit i = m.volumes.any (·.id.testBit i)

theorem testBit_ids (volumes : List (Volume P)) (bits i : Nat) :
    (volumes.foldl (fun bits v => bits ||| v.id) bits).testBit i =
      (bits.testBit i || volumes.any (·.id.testBit i)) := by
  induction volumes generalizing bits with
  | nil => simp
  | cons v volumes ih => rw [List.foldl_cons, ih, Nat.testBit_or, List.any_cons, Bool.or_assoc]

theorem coherent_setVolumes (m : Mount P) (volumes : List (Volume P)) :
    (m.setVolumes volumes).Coherent := by
  intro i
  have bits := testBit_ids volumes 0 i
  rwa [Nat.zero_testBit, Bool.false_or] at bits

theorem Fresh.coherent {m : Mount P} (fresh : m.Fresh) : m.Coherent := by
  intro i
  rw [fresh.bits, fresh.volumes, Nat.zero_testBit]
  rfl

/-- Actions that mount volumes by `setVolumes` only, and leave the bits of the volumes alone in
whatever else they do to the device and its link. -/
inductive Confined : {α : Type} → Action (Mount P) α → Prop
  | pure {α : Type} (x : α) : Confined (pure x)
  | throw {α : Type} (e : Failure) : Confined (throw e : Action (Mount P) α)
  | get : Confined (get : Action (Mount P) (Mount P))
  | bind {α β : Type} {a : Action (Mount P) α} {f : α → Action (Mount P) β} (first : Confined a)
    (rest : ∀ x, Confined (f x)) : Confined (a >>= f)
  | outcome {α : Type} {a : Action (Mount P) α} (inner : Confined a) : Confined (Action.outcome a)
  | onDevice {α : Type} {a : Action (Device P) α}
    (kept : ∀ bits, Preserves (·.info.volumes = bits) a) : Confined (onDevice a)
  | setVolumes (volumes : List (Volume P)) : Confined (modify (·.setVolumes volumes))

theorem Confined.onLink {α : Type} (a : Action (Link P) α) : Confined (onLink a) :=
  .onDevice fun _ d same => by
    rw [Device.onLink, final_within]
    exact same

theorem Confined.modifyDevice {f : Device P → Device P}
    (apart : ∀ d, (f d).info.volumes = d.info.volumes) :
    Confined (modify fun m : Mount P => { m with device := f m.device }) :=
  .onDevice (a := modify f) fun _ => Preserves.modify fun d same => (apart d).trans same

theorem Confined.coherent {α : Type} {a : Action (Mount P) α} (confined : Confined a) :
    Preserves Coherent a := by
  induction confined with
  | pure x => exact Preserves.pure _ x
  | throw e => exact Preserves.throw _ e
  | get => exact Preserves.get _
  | bind first rest ihFirst ihRest => exact ihFirst.bind ihRest
  | outcome inner ih => exact ih.outcome
  | onDevice kept =>
    intro m before i
    rw [final_onDevice, ← before i]
    exact congrArg (Nat.testBit · i) (kept m.device.info.volumes m.device rfl)
  | setVolumes volumes => exact Preserves.modify fun m _ => m.coherent_setVolumes volumes

end Mount

namespace Detection

theorem Search.reached_framer [Port P] {s : Search P} (start : s.start.device.link.framer = {})
    (k : Nat) : (s.reached k).device.link.framer = {} := by
  refine reached_induction (I := (·.device.link.framer = {})) start ?_ k
  intro m d member empty
  unfold past
  split_ifs with wants
  · rw [drained_eq]
    exact Link.drain_framer _
  · exact empty

theorem reached_fresh [Port P] (dialects : List (Dialect P)) (wanted : Option String) (watched : Bool)
    (link : Link P) (k : Nat) :
    (Search.reached ⟨dialects, wanted, watched, drained (Mount.ofLink link)⟩ k).forget.Fresh := by
  apply Mount.fresh_forget
  apply Search.reached_framer
  change (drained (Mount.ofLink link)).device.link.framer = {}
  rw [drained_eq]
  exact Link.drain_framer _

/-- What is found is what the handshake of some dialect made of a mount on which nothing is
known. -/
theorem found_fresh [Port P] {dialects : List (Dialect P)} {wanted : Option String} {watched : Bool}
    {link : Link P} {session : Session P} (found : detect dialects wanted watched link = .found session) :
    ∃ d ∈ dialects, session.dialect = some d ∧
      ∃ m : Mount P, m.Fresh ∧ d.handshake m = .ok () session.mount := by
  let s : Search P := ⟨dialects, wanted, watched, drained (Mount.ofLink link)⟩
  obtain ⟨k, -, ends⟩ := s.exists_ends
  change s.Ends k (detect dialects wanted watched link) at ends
  rw [found] at ends
  cases ends with
  | found asks here matched =>
    exact ⟨_, List.mem_of_getElem? here, rfl, _, reached_fresh dialects wanted watched link k, matched⟩

/-- Every handshake meets a mount on which nothing is known, whatever the handshakes before it did;
and a session that is found has the mount that the handshake of its dialect made of such a one, with
the bits of the volumes mounted there. -/
theorem detect_isolates [Port P] (dialects : List (Dialect P)) (wanted : Option String)
    (watched : Bool) (link : Link P) :
    let s : Search P := ⟨dialects, wanted, watched, drained (Mount.ofLink link)⟩
    let outcome := detect dialects wanted watched link
    (∀ k, s.Asks k → (s.reached k).forget.Fresh) ∧
    (∀ (E : Type) (view : P → List E) (entry : Nat → Mount P → E), Register dialects view entry →
      ∃ entries, view outcome.link.port = view link.port ++ entries ∧
        ∀ e ∈ entries, ∃ k m, m.Fresh ∧ e = entry k m) ∧
    (∀ session, outcome = .found session →
      ∃ d ∈ dialects, session.dialect = some d ∧
        ∃ m : Mount P, m.Fresh ∧ d.handshake m = .ok () session.mount ∧
          (Mount.Confined d.handshake → session.mount.Coherent)) := by
  intro s outcome
  refine ⟨fun k _ => reached_fresh dialects wanted watched link k, ?_, ?_⟩
  · intro E view entry register
    obtain ⟨asked, -, -, entries⟩ := Register.outcome (s := s) register
    have start := Register.drained (s := s) register (Mount.ofLink link)
    refine ⟨asked.map fun k => entry k (s.reached k).forget, ?_, ?_⟩
    · change view outcome.link.port = view (drained (Mount.ofLink link)).device.link.port ++ _
        at entries
      rw [entries, start]
      rfl
    · intro e member
      obtain ⟨k, -, rfl⟩ := List.mem_map.mp member
      exact ⟨k, _, reached_fresh dialects wanted watched link k, rfl⟩
  · intro session found
    obtain ⟨d, member, bound, m, fresh, matched⟩ := found_fresh found
    exact ⟨d, member, bound, m, fresh, matched, fun confined => confined.coherent.of_ok fresh.coherent matched⟩

end Detection

namespace Rehearsal

theorem change_confined {α : Type} {f : Mount Rig → α → Mount Rig}
    (each : ∀ x, Mount.Confined (modify (f · x))) (value : Option α) :
    Mount.Confined (DialectScript.change value f) := by
  cases value with
  | none => exact .pure ()
  | some x => exact each x

theorem handshake_confined (s : DialectScript) : Mount.Confined s.handshake := by
  have logging (entry : LogEntry) : Mount.Confined (Mount.onDevice (VolumeScript.log entry)) :=
    .onDevice fun _ => Preserves.modify fun _ same => same
  have asking (request : Bytes) : Mount.Confined (DialectScript.ask request) :=
    Mount.Confined.get.bind fun _ => (Mount.Confined.onLink _).bind fun _ => logging _
  have requesting : Mount.Confined (s.request.forM DialectScript.ask) := by
    cases s.request with
    | none => exact .pure ()
    | some request => exact asking request
  have ending : Mount.Confined (s.failure.elim (pure ()) throw : Action (Mount Rig) Unit) := by
    cases s.failure with
    | none => exact .pure ()
    | some e => exact .throw e
  have cancelling : Mount.Confined (P := Rig)
      (if s.cancels then Mount.onLink (Link.modifyJob Job.cancel) else pure ()) := by
    split
    · exact Mount.Confined.onLink _
    · exact .pure ()
  rw [DialectScript.handshake_eq]
  exact (Mount.Confined.get.bind fun _ => logging _).bind fun _ =>
    cancelling.bind fun _ => requesting.bind fun _ =>
    (change_confined (fun name => Mount.Confined.modifyDevice (f := (·.setName name))
      fun _ => rfl) s.deviceName).bind fun _ =>
    (change_confined (fun storage => Mount.Confined.modifyDevice (f := (·.setStorage storage))
      fun _ => rfl) s.storage).bind fun _ =>
    (change_confined (fun text => Mount.Confined.modifyDevice (f := (·.setState (.text text)))
      fun _ => rfl) s.text).bind fun _ =>
    (change_confined Mount.Confined.setVolumes s.volumes).bind fun _ => ending

def LogEntry.met? : LogEntry → Option (String × Nat × Nat × Option String)
  | .handshake _ _ device storage volumes text => some (device, storage, volumes, text)
  | _ => none

def outline (m : Mount Rig) : String × Nat × Nat × Option String :=
  (m.device.info.name, m.device.info.storage, m.volumes.length, m.device.text.toOption)

def halfAndWhole : List DialectScript :=
  let volume (id : Nat) := VolumeScript.volume { name := "volume", id }
  [{ number := 0, name := "half", deviceName := some "Half", storage := some 3, text := some "half",
      volumes := some [volume 2], failure := some (.notFound "no") },
    { number := 1, name := "whole", deviceName := some "Whole", volumes := some [volume 1, volume 4] }]

end Rehearsal

open Rehearsal Detection in
theorem isolation_of_rehearsed :
    let outcome := detect (halfAndWhole.map DialectScript.dialect) none true silentRig
    (∀ e ∈ [("", 0, 0, none), ("", 0, 0, none)], ∃ m : Mount Rig, m.Fresh ∧ e = outline m) ∧
    outcome.link.port.picked LogEntry.met? = [("", 0, 0, none), ("", 0, 0, none)] ∧
    ∃ session, outcome = .found session ∧ session.mount.Coherent ∧
      session.mount.device.info.volumes = 5 ∧ session.mount.device.state = none := by
  intro outcome
  obtain ⟨-, meetings, found⟩ :=
    detect_isolates (halfAndWhole.map DialectScript.dialect) none true silentRig
  have met : outcome.link.port.picked LogEntry.met? = [("", 0, 0, none), ("", 0, 0, none)] := by
    decide +kernel
  have result : outcome.found?.map (fun session =>
      (session.mount.device.info.volumes, session.mount.device.state.isNone)) = some (5, true) := by
    decide +kernel
  refine ⟨?_, met, ?_⟩
  · obtain ⟨entries, logged, each⟩ := meetings _ (Rig.picked LogEntry.met?) (fun _ => outline)
      (DialectScript.register (fun _ => rfl) fun _ _ _ _ => rfl)
    have same : [("", 0, 0, none), ("", 0, 0, none)] = entries := met.symm.trans logged
    rw [same]
    intro e member
    obtain ⟨-, m, fresh, rfl⟩ := each e member
    exact ⟨m, fresh, rfl⟩
  · obtain ⟨session, isFound, values⟩ := Option.map_eq_some_iff.mp result
    obtain ⟨d, member, -, m, -, -, coherent⟩ := found session (found?_eq_some.mp isFound)
    obtain ⟨script, -, rfl⟩ := List.mem_map.mp member
    obtain ⟨bits, stateless⟩ := Prod.mk.inj values
    exact ⟨session, found?_eq_some.mp isFound, coherent (handshake_confined script), bits,
      Option.isNone_iff_eq_none.mp stateless⟩

end MidiStorage
