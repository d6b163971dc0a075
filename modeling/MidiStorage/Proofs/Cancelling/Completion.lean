import MidiStorage.Browse
import MidiStorage.Proofs.Cancelling.Final
import MidiStorage.Proofs.Layers
import MidiStorage.Rehearsal.Volume

namespace MidiStorage

open MidiStorage.Action

variable {P α : Type}

namespace Device

def Cancelled (d : Device P) : Prop := d.link.run.job.active = false

instance (d : Device P) : Decidable d.Cancelled := inferInstanceAs (Decidable (_ = _))

/-- The device that the method of a volume with these options is handed. -/
def handed (options : VolumeOptions) (d : Device P) : Device P :=
  if options.singleOperation then { d with link := d.link.started } else d

def completed (options : VolumeOptions) (d : Device P) : Device P :=
  if options.singleOperation then { d with link := d.link.finished } else d

/-- The job is found cancelled at some moment of the method: up to there the method may do anything,
and from there on nothing revives the job. -/
def Interrupted (method : Action (Device P) α) (d : Device P) : Prop :=
  ∃ (β : Type) (first : Action (Device P) β) (rest : β → Action (Device P) α),
    method = first >>= rest ∧ (∀ x, Preserves Cancelled (rest x)) ∧ (final (first d)).Cancelled

theorem Interrupted.cancelled {method : Action (Device P) α} {d : Device P}
    (interrupted : Interrupted method d) : (final (method d)).Cancelled := by
  obtain ⟨β, first, rest, rfl, preserves, cancelled⟩ := interrupted
  cases run : first d with
  | ok x d₁ =>
    rw [run] at cancelled
    rw [bind_of_ok run]
    exact preserves x d₁ cancelled
  | error e d₁ =>
    rw [run] at cancelled
    rw [bind_of_error run]
    exact cancelled

theorem outcome_bind_ofExcept (method : Action (Device P) α) :
    (outcome method >>= Action.ofExcept) = method := by
  funext d
  cases run : method d with
  | ok x d₁ => rw [bind_of_ok (outcome_of_ok run), ofExcept_ok]
  | error e d₁ => rw [bind_of_ok (outcome_of_error run), ofExcept_error]

theorem interrupted_iff {method : Action (Device P) α} {d : Device P} :
    Interrupted method d ↔ (final (method d)).Cancelled := by
  constructor
  · exact Interrupted.cancelled
  · intro cancelled
    refine ⟨_, outcome method, Action.ofExcept, (outcome_bind_ofExcept method).symm, ?_, ?_⟩
    · exact Preserves.ofExcept _
    · cases run : method d with
      | ok x d₁ =>
        rw [run] at cancelled
        rwa [outcome_of_ok run]
      | error e d₁ =>
        rw [run] at cancelled
        rwa [outcome_of_error run]

end Device

def failureOf {σ : Type} : EStateM.Result Failure σ α → Failure
  | .ok _ _ => .cancelled
  | .error e _ => e

namespace Mount

theorem check_of_cancelled {m : Mount P} (cancelled : m.device.Cancelled) :
    onLink (Link.check true) m = .error .cancelled m :=
  onLink_of_error (Link.check_of_stopped ⟨rfl, cancelled⟩)

theorem check_of_active {m : Mount P} (active : ¬ m.device.Cancelled) :
    onLink (Link.check true) m = .ok () m :=
  onLink_of_ok (Link.check_of_not_stopped fun stopped => active stopped.2)

variable {options : VolumeOptions} {method : Action (Device P) α} {m : Mount P}

theorem transfer_of_cancelled (cancelled : m.device.Cancelled) :
    transfer options method m = .error .cancelled m := by
  rw [transfer, bind_of_error (check_of_cancelled cancelled)]

theorem transfer_of_active (active : ¬ m.device.Cancelled) :
    transfer options method m = (onDevice method >>= fun result => do
      onLink (Link.check true)
      if options.singleOperation then onLink (Link.report (·.advance 1.0))
      pure result) { m with device := m.device.handed options } := by
  rw [transfer, bind_of_ok (check_of_active active)]
  unfold Device.handed
  split_ifs with single
  · have begun : onLink (Link.report (·.start 1)) m =
        .ok () { m with device := { m.device with link := m.device.link.started } } :=
      onLink_of_ok (Link.start_apply _)
    rw [bind_of_ok begun]
  · rfl

theorem transfer_of_error (active : ¬ m.device.Cancelled) {e : Failure} {d : Device P}
    (failed : method (m.device.handed options) = .error e d) :
    transfer options method m = .error e { m with device := d } := by
  have inner := onDevice_of_error (m := { m with device := m.device.handed options }) failed
  rw [transfer_of_active active, bind_of_error inner]

theorem transfer_of_interrupted (active : ¬ m.device.Cancelled) {x : α} {d : Device P}
    (run : method (m.device.handed options) = .ok x d) (cancelled : d.Cancelled) :
    transfer options method m = .error .cancelled { m with device := d } := by
  have inner := onDevice_of_ok (m := { m with device := m.device.handed options }) run
  have stopped := check_of_cancelled (m := { m with device := d }) cancelled
  rw [transfer_of_active active, bind_of_ok inner, bind_of_error stopped]

theorem transfer_of_ok (active : ¬ m.device.Cancelled) {x : α} {d : Device P}
    (run : method (m.device.handed options) = .ok x d) (still : ¬ d.Cancelled) :
    transfer options method m = .ok x { m with device := d.completed options } := by
  have inner := onDevice_of_ok (m := { m with device := m.device.handed options }) run
  have going := check_of_active (m := { m with device := d }) still
  rw [transfer_of_active active, bind_of_ok inner, bind_of_ok going]
  unfold Device.completed
  split_ifs with single
  · rfl
  · rfl

/-- How an operation on full paths guards the methods of the volumes, which are called for the
volume and the inner path that a path resolves to. -/
structure Guarded (m : Mount P) (op : Operation) (path : String)
    (method : Volume P → String → Action (Device P) α) (helper : Action (Mount P) α) : Prop where
  unresolved (e : Failure) : m.resolveFor op path = .error e → helper m = .error e m
  before (v : Volume P) (inner : String) : m.resolveFor op path = .ok (v, inner) →
    m.device.Cancelled → helper m = .error .cancelled m
  during (v : Volume P) (inner : String) : m.resolveFor op path = .ok (v, inner) →
    ¬ m.device.Cancelled → Device.Interrupted (method v inner) (m.device.handed v.options) →
    helper m = .error (failureOf (method v inner (m.device.handed v.options)))
      { m with device := final (method v inner (m.device.handed v.options)) }
  failed (v : Volume P) (inner : String) (e : Failure) (d : Device P) :
    m.resolveFor op path = .ok (v, inner) → ¬ m.device.Cancelled →
    method v inner (m.device.handed v.options) = .error e d → helper m = .error e { m with device := d }
  completed (v : Volume P) (inner : String) (x : α) (d : Device P) :
    m.resolveFor op path = .ok (v, inner) → ¬ m.device.Cancelled →
    method v inner (m.device.handed v.options) = .ok x d → ¬ d.Cancelled →
    helper m = .ok x { m with device := d.completed v.options }

theorem guarded_transfer (m : Mount P) (op : Operation) (path : String)
    (method : Volume P → String → Action (Device P) α) :
    Guarded m op path method (do
      let (v, inner) ← Action.ofExcept ((← get).resolveFor op path)
      transfer v.options (method v inner)) := by
  let helper : Action (Mount P) α := do
    let (v, inner) ← Action.ofExcept ((← get).resolveFor op path)
    transfer v.options (method v inner)
  have refused {e : Failure} (unresolved : m.resolveFor op path = .error e) :
      helper m = .error e m := by
    change (get >>= fun m : Mount P => Action.ofExcept (m.resolveFor op path) >>= _) m = _
    rw [bind_of_ok (get_apply m), unresolved, bind_of_error (ofExcept_error e m)]
  have transferred {v : Volume P} {inner : String} (resolved : m.resolveFor op path = .ok (v, inner)) :
      helper m = transfer v.options (method v inner) m := by
    change (get >>= fun m : Mount P => Action.ofExcept (m.resolveFor op path) >>= _) m = _
    rw [bind_of_ok (get_apply m), resolved, bind_of_ok (ofExcept_ok _ m)]
  constructor
  · intro e unresolved
    exact refused unresolved
  · intro v inner resolved cancelled
    exact (transferred resolved).trans (transfer_of_cancelled cancelled)
  · intro v inner resolved active interrupted
    have cancelled := interrupted.cancelled
    apply (transferred resolved).trans
    cases run : method v inner (m.device.handed v.options) with
    | ok x d =>
      rw [run] at cancelled
      exact transfer_of_interrupted active run cancelled
    | error e d => exact transfer_of_error active run
  · intro v inner e d resolved active run
    exact (transferred resolved).trans (transfer_of_error active run)
  · intro v inner x d resolved active run still
    exact (transferred resolved).trans (transfer_of_ok active run still)

/-- Downloads and uploads never report success for a job that was cancelled before the call or at
any moment up to the return of the volume's method, and do not complete it; otherwise they end as
the method does. -/
theorem cancelled_never_completes (m : Mount P) (path : String) (data : Bytes) :
    Guarded m .download path (fun v inner => v.download inner) (download path) ∧
    Guarded m .upload path (fun v inner => v.upload inner data) (upload path data) :=
  ⟨guarded_transfer m .download path _, guarded_transfer m .upload path _⟩

end Mount

namespace Rehearsal

def carefree : VolumeScript where
  name := "slots"
  id := 1
  options := { singleOperation := true }
  capabilities := Capabilities.ofList [.list, .download, .upload]
  data := [0xF0, 1, 0xF7]
  advances := [0.5, 1.0]
  cancelsIn := some .download

def carefreeMount : Mount Rig where
  device := { link := Link.ofPort "rig:0" { port := .scripted { name := "rig" } } Timing.standard }
  volumes := [carefree.volume]

/-- The method succeeds and its success is not reported; an upload after it does not even begin. -/
theorem carefree_never_completes :
    let m := carefreeMount
    let method := carefree.volume.download "/0"
    let left := final (method (m.device.handed carefree.options))
    answer (method (m.device.handed carefree.options)) = .ok [0xF0, 1, 0xF7] ∧
      left.link.port.log = [.call "slots" .download ["/0"] none] ∧
      Mount.download "/slots/0" m = .error .cancelled { m with device := left } ∧
      Mount.upload "/slots/0" [0xF0, 2, 0xF7] { m with device := left } =
        .error .cancelled { m with device := left } := by
  intro m method left
  have resolved (op : Operation) (allowed : carefree.capabilities.allows op = true) (device : Device Rig) :
      ({ m with device } : Mount Rig).resolveFor op "/slots/0" = .ok (carefree.volume, "/0") := by
    have split : DevicePath.split "/slots/0" = .ok ("slots", "/0") := by decide +kernel
    unfold Mount.resolveFor Mount.resolve
    rw [split]
    exact if_pos allowed
  have succeeded : answer (method (m.device.handed carefree.options)) = .ok [0xF0, 1, 0xF7] := by
    decide +kernel
  have cancelled : left.Cancelled := by decide +kernel
  have active : ¬ m.device.Cancelled := by decide +kernel
  obtain ⟨downloads, -⟩ := Mount.cancelled_never_completes m "/slots/0" []
  obtain ⟨-, uploads⟩ :=
    Mount.cancelled_never_completes { m with device := left } "/slots/0" [0xF0, 2, 0xF7]
  have stopped : Mount.download "/slots/0" m =
      .error (failureOf (method (m.device.handed carefree.options))) { m with device := left } :=
    downloads.during _ _ (resolved .download rfl m.device) active
      (Device.interrupted_iff.mpr cancelled)
  have failure : failureOf (method (m.device.handed carefree.options)) = .cancelled := by
    rw [eq_ok_of_answer succeeded]
    rfl
  rw [failure] at stopped
  exact ⟨succeeded, by decide +kernel, stopped,
    uploads.before _ _ (resolved .upload rfl left) cancelled⟩

end Rehearsal

end MidiStorage
