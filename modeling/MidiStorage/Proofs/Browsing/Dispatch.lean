import Mathlib.Data.List.Nodup
import MidiStorage.Proofs.Browsing.Requests
import MidiStorage.Proofs.Cancelling.Completion

namespace MidiStorage

open MidiStorage.Action

variable {P α : Type}

namespace Mount

theorem Addresses.mem {m : Mount P} {path : String} {v : Volume P} {inner : String}
    (addresses : m.Addresses path v inner) : v ∈ m.volumes := by
  obtain ⟨before, after, volumes, -⟩ := addresses.first
  rw [volumes]
  exact List.mem_append_right before List.mem_cons_self

section Target

variable {m : Mount P} {v : Volume P} {op : Operation} {target : String}

theorem destined_ok (distinct : (m.volumes.map (·.id)).Nodup) (mounted : v ∈ m.volumes)
    (destined : m.destined v op (some target) = .ok ()) :
    m.Addresses target v (m.inside target) ∨
      op = .rename ∧ m.inside target = target ∧ ∀ w inner, ¬ m.Addresses target w inner := by
  unfold inside
  dsimp only [Mount.destined] at destined
  cases resolved : m.resolve target with
  | error e =>
    rw [resolved] at destined
    dsimp only at destined
    split_ifs at destined with bare
    exact Or.inr ⟨bare, rfl, (resolve_of_error resolved).2⟩
  | ok place =>
    obtain ⟨w, inner⟩ := place
    rw [resolved] at destined
    dsimp only at destined
    split_ifs at destined with same
    have addresses := resolve_ok_iff.mp resolved
    obtain rfl : w = v := List.inj_on_of_nodup_map distinct addresses.mem mounted same
    exact Or.inl addresses

theorem destined_error {e : Failure} {target? : Option String}
    (destined : m.destined v op target? = .error e) :
    ∃ target, target? = some target ∧ e = .invalidPath target ∧
      (∀ inner, ¬ m.Addresses target v inner) ∧
      ((∃ w inner, m.Addresses target w inner) ∨ op ≠ .rename) := by
  cases target? with
  | none => cases destined
  | some target =>
    refine ⟨target, rfl, ?_⟩
    dsimp only [Mount.destined] at destined
    cases resolved : m.resolve target with
    | error e' =>
      rw [resolved] at destined
      dsimp only at destined
      split_ifs at destined with path
      cases destined
      obtain ⟨rfl, nowhere⟩ := resolve_of_error resolved
      exact ⟨rfl, nowhere v, Or.inr path⟩
    | ok place =>
      obtain ⟨w, inner⟩ := place
      rw [resolved] at destined
      dsimp only at destined
      split_ifs at destined with other
      cases destined
      refine ⟨rfl, ?_, Or.inl ⟨w, inner, resolve_ok_iff.mp resolved⟩⟩
      intro inner' addresses
      rw [resolve_ok_iff.mpr addresses] at resolved
      cases resolved
      exact other rfl

end Target

/-- How a request on a mount ends, and which volumes are handed what for it. -/
inductive Dispatched (m : Mount P) :
    {α : Type} → Request α → List (Volume P × Request α) → EStateM.Result Failure (Mount P) α → Prop
  | roots {path : String} (root : ∀ c ∈ path.toList, c = '/') :
    Dispatched m (.list path) []
      (.ok (m.volumes.map fun v => { id := v.id, name := v.name, kind := .directory }) m)
  | unresolved {α : Type} {r : Request α}
    (inner : ¬ (r.operation = .list ∧ ∀ c ∈ r.source.toList, c = '/'))
    (nowhere : ∀ v inner, ¬ m.Addresses r.source v inner) :
    Dispatched m r [] (.error (.invalidPath r.source) m)
  | undeclared {α : Type} {r : Request α} {v : Volume P} {inner : String}
    (source : m.Addresses r.source v inner) (refused : ¬ r.Declared v) :
    Dispatched m r [] (.error (.notSupported (r.on v).operation.name) m)
  /-- Only a plain renaming takes a target that leads nowhere. -/
  | misdirected {α : Type} {r : Request α} {v : Volume P} {inner target : String}
    (source : m.Addresses r.source v inner) (declared : r.Declared v) (named : r.target? = some target)
    (elsewhere : ∀ inner, ¬ m.Addresses target v inner)
    (path : (∃ w inner, m.Addresses target w inner) ∨ (r.on v).operation ≠ .rename) :
    Dispatched m r [] (.error (.invalidPath target) m)
  | cancelled {α : Type} {r : Request α} {v : Volume P} {inner : String}
    (source : m.Addresses r.source v inner) (declared : r.Declared v) (transfers : r.Transfers)
    (cancelled : m.device.Cancelled) :
    Dispatched m r [] (.error .cancelled m)
  | called {α : Type} {r : Request α} {v : Volume P} {inside : String → String}
    (source : m.Addresses r.source v (inside r.source)) (declared : r.Declared v)
    (target : ∀ target, r.target? = some target → m.Addresses target v (inside target) ∨
      (r.on v).operation = .rename ∧ inside target = target ∧ ∀ w inner, ¬ m.Addresses target w inner)
    (active : r.Transfers → ¬ m.device.Cancelled) :
    Dispatched m r [(v, (r.on v).map inside)] (r.around v (((r.on v).map inside).perform v) m)

theorem isRoot_iff {path : String} : DevicePath.isRoot path = true ↔ ∀ c ∈ path.toList, c = '/' := by
  simp only [DevicePath.isRoot, List.all_eq_true, decide_eq_true_eq]

theorem browse_dispatched (m : Mount P) (distinct : (m.volumes.map (·.id)).Nodup) (r : Request α) :
    ∃ calls, Dispatched m r calls (r.browse m) := by
  by_cases root : r.operation = .list ∧ ∀ c ∈ r.source.toList, c = '/'
  · obtain ⟨listing, slashes⟩ := root
    cases r with
    | list path =>
      have listed : (Request.list path).browse m =
          .ok (m.volumes.map fun v => { id := v.id, name := v.name, kind := .directory }) m := by
        have root : DevicePath.isRoot path = true := isRoot_iff.mpr slashes
        change list path m = _
        unfold list
        rw [bind_of_ok (get_apply m), root]
        rfl
      rw [listed]
      exact ⟨[], .roots slashes⟩
    | _ => cases listing
  · have inner : r.operation = .list → DevicePath.isRoot r.source = false := by
      intro listing
      rw [← Bool.not_eq_true, isRoot_iff]
      exact fun slashes => root ⟨listing, slashes⟩
    rw [browse_eq m r inner]
    cases routed : m.route r with
    | error e =>
      obtain lost | ⟨v, inner, found, ⟨refused, rfl⟩ | ⟨declared, misled⟩⟩ := route_error routed
      · obtain ⟨rfl, nowhere⟩ := resolve_of_error lost
        exact ⟨[], .unresolved root nowhere⟩
      · exact ⟨[], .undeclared (resolve_ok_iff.mp found) refused⟩
      · obtain ⟨target, named, rfl, elsewhere, path⟩ := destined_error misled
        exact ⟨[], .misdirected (resolve_ok_iff.mp found) declared named elsewhere path⟩
    | ok v =>
      obtain ⟨inner, found, declared, destined⟩ := route_ok routed
      have source := resolve_ok_iff.mp found
      by_cases stopped : r.Transfers ∧ m.device.Cancelled
      · obtain ⟨transfers, cancelled⟩ := stopped
        dsimp only
        rw [Request.around_of_transfers transfers, transfer_of_cancelled cancelled]
        exact ⟨[], .cancelled source declared transfers cancelled⟩
      · refine ⟨_, .called ?_ declared ?_ fun transfers cancelled => stopped ⟨transfers, cancelled⟩⟩
        · have place : m.inside r.source = inner := by simp only [inside, found]
          rwa [place]
        · intro target named
          rw [named] at destined
          exact destined_ok distinct source.mem destined

/-- Something a port keeps, in which each operation of the volumes enters itself once. -/
structure Register (volumes : List (Volume P)) (E : Type) where
  view : P → List E
  entry : {α : Type} → Volume P → Request α → E
  enters : ∀ v ∈ volumes, ∀ {α : Type} (r : Request α) (d : Device P),
    view (final (r.perform v d)).link.port = view d.link.port ++ [entry v r]

theorem port_transfer {options : VolumeOptions} {m : Mount P} (active : ¬ m.device.Cancelled)
    (operation : Action (Device P) α) :
    (final (transfer options operation m)).device.link.port =
      (final (operation (m.device.handed options))).link.port := by
  cases run : operation (m.device.handed options) with
  | error e d => rw [transfer_of_error active run]; rfl
  | ok x d =>
    by_cases cancelled : d.Cancelled
    · rw [transfer_of_interrupted active run cancelled]
      rfl
    · rw [transfer_of_ok active run cancelled]
      simp only [final, Device.completed]
      split_ifs
      · rfl
      · rfl

theorem port_handed (options : VolumeOptions) (d : Device P) :
    (d.handed options).link.port = d.link.port := by
  unfold Device.handed
  split_ifs
  · rfl
  · rfl

theorem Dispatched.length_le {m : Mount P} {r : Request α} {calls : List (Volume P × Request α)}
    {result : EStateM.Result Failure (Mount P) α} (dispatched : Dispatched m r calls result) :
    calls.length ≤ 1 := by
  cases dispatched <;> simp

theorem Dispatched.registered {m : Mount P} {r : Request α} {calls : List (Volume P × Request α)}
    {result : EStateM.Result Failure (Mount P) α} (dispatched : Dispatched m r calls result) {E : Type}
    (register : Register m.volumes E) :
    register.view (final result).device.link.port =
      register.view m.device.link.port ++ calls.map fun call => register.entry call.1 call.2 := by
  cases dispatched with
  | called source declared target active =>
    rename_i v inside
    have mounted := source.mem
    by_cases transfers : r.Transfers
    · rw [Request.around_of_transfers transfers, port_transfer (active transfers),
        register.enters v mounted, port_handed]
      rfl
    · rw [Request.around_of_not_transfers transfers, final_onDevice]
      exact register.enters v mounted _ _
  | _ => exact (List.append_nil _).symm

/-- Any number of volumes, some of them with one name. At most one operation of a volume is
performed, and a register of the port has an entry for it and for nothing else. -/
theorem browse_dispatches (m : Mount P) (distinct : (m.volumes.map (·.id)).Nodup) (r : Request α) :
    ∃ calls, Dispatched m r calls (r.browse m) ∧ calls.length ≤ 1 ∧
      ∀ {E : Type} (register : Register m.volumes E),
        register.view (final (r.browse m)).device.link.port =
          register.view m.device.link.port ++ calls.map fun call => register.entry call.1 call.2 := by
  obtain ⟨calls, dispatched⟩ := browse_dispatched m distinct r
  exact ⟨calls, dispatched, dispatched.length_le, fun register => dispatched.registered register⟩

end Mount

namespace Rehearsal

namespace VolumeScript

theorem act_logged (s : VolumeScript) (op : Operation) (paths : List String) (data : Option Bytes)
    (d : Device Rig) :
    (final (s.act op paths data d)).link.port.log =
      d.link.port.log ++ [.call s.name op paths data] := by
  unfold act log
  rw [bind_of_ok (modify_apply _ d)]
  split_ifs with cancels
  · cases s.failures.lookup op <;> rfl
  · cases s.failures.lookup op <;> rfl

theorem reportProgress_apply (s : VolumeScript) (d : Device Rig) :
    ∃ d', s.reportProgress d = .ok () d' ∧ d'.link.port = d.link.port := by
  unfold reportProgress
  induction s.advances generalizing d with
  | nil => exact ⟨d, rfl, rfl⟩
  | cons x advances ih =>
    let run := d.link.run.report (·.advance x)
    obtain ⟨d', reported, port⟩ := ih { d with link := { d.link with run } }
    exact ⟨d', reported, port⟩

theorem perform_logged (s : VolumeScript) {α : Type} (r : Request α) (d : Device Rig) :
    (final (r.perform s.volume d)).link.port.log =
      d.link.port.log ++ [.call s.name r.operation r.paths r.data?] := by
  cases r with
  | list path =>
    have logged := s.act_logged .list [path] none d
    change (final (s.readDir path d)).link.port.log = _
    unfold readDir
    cases run : s.act .list [path] none d with
    | error e d' =>
      rw [bind_of_error run]
      rwa [run] at logged
    | ok _ d' =>
      rw [bind_of_ok run]
      rw [run] at logged
      split_ifs
      · exact logged
      · exact logged
  | download path =>
    obtain ⟨d', reported, port⟩ := s.reportProgress_apply d
    have logged := s.act_logged .download [path] none d'
    change (final ((s.reportProgress >>= fun _ => s.act .download [path] >>= fun _ =>
      pure s.data) d)).link.port.log = _
    rw [bind_of_ok reported, final_bind_pure (f := fun _ => s.data), logged, port]
    rfl
  | upload path data =>
    obtain ⟨d', reported, port⟩ := s.reportProgress_apply d
    have logged := s.act_logged .upload [path] (some data) d'
    change (final ((s.reportProgress >>= fun _ =>
      s.act .upload [path] (some data)) d)).link.port.log = _
    rw [bind_of_ok reported, logged, port]
    rfl
  | rename source target => exact s.act_logged .rename [source, target] none d
  | move source target => exact s.act_logged .move [source, target] none d
  | copy source target => exact s.act_logged .copy [source, target] none d
  | swap source target => exact s.act_logged .swap [source, target] none d
  | delete path => exact s.act_logged .delete [path] none d
  | mkdir path => exact s.act_logged .mkdir [path] none d
  | clear path => exact s.act_logged .clear [path] none d

def register (scripts : List VolumeScript) : Mount.Register (scripts.map (·.volume)) LogEntry where
  view rig := rig.log
  entry v r := .call v.name r.operation r.paths r.data?
  enters := by
    intro v mounted α r d
    obtain ⟨s, -, rfl⟩ := List.mem_map.mp mounted
    exact s.perform_logged r d

end VolumeScript

def shelf : List VolumeScript :=
  [{ name := "slots", id := 1, capabilities := Capabilities.ofList [.list, .rename] },
    { name := "bank", id := 2, capabilities := Capabilities.ofList [.list, .move] }]

def shelfMount : Mount Rig where
  device := { link := Link.ofPort "rig:0" { port := .scripted { name := "rig" } } Timing.standard }
  volumes := shelf.map (·.volume)

theorem shelf_dispatches :
    (shelfMount.volumes.map (·.id)).Nodup ∧
      ∃ calls, shelfMount.Dispatched (.rename "/slots/1" "Choir") calls
          (Mount.rename "/slots/1" "Choir" shelfMount) ∧
        calls.map (fun call => (VolumeScript.register shelf).entry call.1 call.2) =
          [.call "slots" .rename ["/1", "Choir"] none] := by
  have distinct : (shelfMount.volumes.map (·.id)).Nodup := by decide
  obtain ⟨calls, dispatched, -, registered⟩ :=
    Mount.browse_dispatches shelfMount distinct (.rename "/slots/1" "Choir")
  have logged : (final (Mount.rename "/slots/1" "Choir" shelfMount)).device.link.port.log =
      [.call "slots" .rename ["/1", "Choir"] none] := by decide +kernel
  exact ⟨distinct, calls, dispatched, (registered (VolumeScript.register shelf)).symm.trans logged⟩

end Rehearsal

end MidiStorage
