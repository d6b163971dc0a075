import MidiStorage.Eventide.Dialect
import MidiStorage.Proofs.Cache.Durable
import MidiStorage.Proofs.Cancelling.Completion
import MidiStorage.Proofs.Eventide.StaleBank
import MidiStorage.Proofs.Progress.Parts

namespace MidiStorage

open MidiStorage.Action

namespace Job

/-- A job of one part under way, of which nothing is counted yet or all. Its listener heard these
values. -/
structure Heard (values : List Float) (j : Job Float) : Prop where
  observed : j.observed = true
  whole : j.parts = 1
  first : j.part = 0
  reports : j.reports = values

theorem heard_start {j : Job Float} (observed : j.observed = true) :
    (j.start 1).Heard (j.reports ++ [0.0]) where
  observed := (report_observed _ _).trans observed
  whole := report_parts _ _
  first := report_part _ _
  reports := start_reports observed 1

namespace Heard

variable {values : List Float} {j : Job Float}

theorem cancel (heard : j.Heard values) : j.cancel.Heard values :=
  ⟨heard.observed, heard.whole, heard.first, heard.reports⟩

theorem overall_one (heard : j.Heard values) : j.overall 1.0 = 1.0 := by
  unfold overall
  rw [heard.whole, heard.first]
  decide +kernel

theorem advance (heard : j.Heard values) : (j.advance 1.0).Heard (values ++ [1.0]) where
  observed := (report_observed _ _).trans heard.observed
  whole := (report_parts _ _).trans heard.whole
  first := (report_part _ _).trans heard.first
  reports := by rw [advance_reports heard.observed, heard.reports, heard.overall_one]

theorem report {r : Run} {change : Job Float → Job Float} (heard : (change r.job).Heard values) :
    (r.report change).job.Heard values := by
  rw [Run.report_job]
  split_ifs
  · exact heard.cancel
  · exact heard

end Heard

section Told

variable {σ α : Type} (job : σ → Job Float) (s : σ)

/-- What the listener hears of a call: some zeros and then some ones, and a one exactly if the call
ends well. -/
def Told (result : EStateM.Result Failure σ α) : Prop :=
  ∃ told, (job (final result)).reports = (job s).reports ++ told ∧
    (∃ zeros ones, told = List.replicate zeros 0.0 ++ List.replicate ones 1.0) ∧
    (1.0 ∈ told ↔ ∃ x s', result = .ok x s')

/-- What it hears of a call that cannot end well: nothing but zeros, or a single one that is taken
back at once, as the job is then found cancelled. -/
def Revoked (result : EStateM.Result Failure σ α) : Prop :=
  ∃ told e s', result = .error e s' ∧ (job s').reports = (job s).reports ++ told ∧
    ((∃ zeros, told = List.replicate zeros 0.0) ∨ told = [0.0, 0.0, 1.0] ∧ e = .cancelled)

/-- What it hears of a call whose job may get cancelled at one place that matters. -/
def ToldUnless (interrupted : Bool) (result : EStateM.Result Failure σ α) : Prop :=
  (interrupted = false → Told job s result) ∧ (interrupted = true → Revoked job s result)

variable {job s}

theorem told_of_error {s' : σ} {e : Failure} (zeros : Nat)
    (heard : (job s').reports = (job s).reports ++ List.replicate zeros 0.0) :
    Told (α := α) job s (.error e s') := by
  refine ⟨List.replicate zeros 0.0, heard, ⟨zeros, 0, (List.append_nil _).symm⟩, ?_⟩
  have differ : (1.0 : Float) ≠ 0.0 := by decide +kernel
  simp [List.mem_replicate, differ]

theorem told_of_ok {s' : σ} {x : α} (zeros ones : Nat)
    (heard : (job s').reports =
      (job s).reports ++ (List.replicate zeros 0.0 ++ List.replicate (ones + 1) 1.0)) :
    Told job s (.ok x s') :=
  ⟨_, heard, ⟨zeros, ones + 1, rfl⟩, by simp⟩

theorem toldUnless_of_error {interrupted : Bool} {s' : σ} {e : Failure} (zeros : Nat)
    (heard : (job s').reports = (job s).reports ++ List.replicate zeros 0.0) :
    ToldUnless (α := α) job s interrupted (.error e s') :=
  ⟨fun _ => told_of_error zeros heard, fun _ => ⟨_, e, s', rfl, heard, Or.inl ⟨zeros, rfl⟩⟩⟩

end Told

end Job

variable {P α : Type}

namespace Link

theorem started_heard {l : Link P} (observed : l.run.job.observed = true) :
    l.started.run.job.Heard (l.run.job.reports ++ [0.0]) :=
  (Job.heard_start observed).report

theorem finished_heard {values : List Float} {l : Link P} (heard : l.run.job.Heard values) :
    l.finished.run.job.Heard (values ++ [1.0]) :=
  heard.advance.report

theorem Serves.heard {values : List Float} {j : Job Float} {l : Link P} (serves : Serves j l)
    (heard : j.Heard values) : l.run.job.Heard values := by
  rcases serves with same | cancelled
  · rwa [same]
  · rw [cancelled]
    exact heard.cancel

/-- The link goes on with this run: the job may get cancelled, but no value of it is told. -/
structure Attends (r : Run) (l : Link P) : Prop where
  serves : Serves r.job l
  hearings : l.run.hearings = r.hearings

theorem attends_self (l : Link P) : Attends l.run l := ⟨Or.inl rfl, rfl⟩

namespace Attends

variable {r : Run} {l : Link P}

theorem afterTurn (attends : Attends r l) (port : P) (cancels : Bool) (event : Option LinkEvent) :
    Attends r (l.afterTurn port cancels event) where
  serves := attends.serves.afterTurn port cancels event
  hearings := by
    unfold Link.afterTurn
    cases cancels <;> exact attends.hearings

theorem interrupts (attends : Attends r l) (value : Nat) : l.run.interrupts value = r.interrupts value := by
  unfold Run.interrupts
  rw [attends.hearings]

end Attends

theorem now_unheard (hearings : List Bool) : Preserves (·.run.hearings = hearings) (now (P := P)) :=
  Preserves.within (fun _ _ => rfl) (Run.now_hearings hearings)

variable [Port P]

theorem attends_steadfast (r : Run) : Steadfast (P := P) (Attends r) where
  now l attends := ⟨Serves.now r.job l attends.serves, now_unheard r.hearings l attends.hearings⟩
  sleep _ _ attends := ⟨attends.serves, attends.hearings⟩
  read _ attends := attends.afterTurn _ _ _
  push _ _ attends := ⟨attends.serves, attends.hearings⟩
  pop _ attends := ⟨attends.serves, attends.hearings⟩
  popAll _ attends := ⟨attends.serves, attends.hearings⟩
  write _ _ attends := attends.afterTurn _ _ _
  clear _ attends := ⟨attends.serves, attends.hearings⟩

theorem sendSysex_told {l : Link P} (observed : l.run.job.observed = true) (bytes : Bytes) :
    Job.Told (·.run.job) l (sendSysex bytes l) := by
  have begun := started_heard observed
  cases sent : Exchange.sendSlices true (bytes.slices Transfer.sliceSize) l.started with
  | error e l₁ =>
    have serves := (serves_sendSlices _ _ _).of_error (Or.inl rfl) sent
    rw [sendSysex_of_error sent]
    exact Job.told_of_error 1 (serves.heard begun).reports
  | ok u l₁ =>
    have serves := (serves_sendSlices _ _ _).of_ok (Or.inl rfl) sent
    have complete := finished_heard (l := l₁.unremembering) (serves.heard begun)
    rw [sendSysex_of_ok sent]
    refine Job.told_of_ok 1 0 (complete.reports.trans ?_)
    rw [List.append_assoc]
    rfl

theorem receiveSysex_told {l : Link P} (observed : l.run.job.observed = true) :
    Job.Told (·.run.job) l (receiveSysex l) := by
  have begun := started_heard observed
  cases heard : Exchange.collect l.dump l.started with
  | error e l₁ =>
    have serves := (serves_collect _ _).of_error (Or.inl rfl) heard
    rw [receiveSysex_of_error heard]
    exact Job.told_of_error 1 (serves.heard begun).reports
  | ok bytes l₁ =>
    have serves := (serves_collect _ _).of_ok (Or.inl rfl) heard
    rw [receiveSysex_of_ok heard]
    refine Job.told_of_ok 1 0 ((finished_heard (serves.heard begun)).reports.trans ?_)
    rw [List.append_assoc]
    rfl

end Link

namespace Device

/-- The method starts a job of one part and completes it only where it finds the job still active,
so that afterwards only that second value can have got it cancelled. -/
def CountsOne (method : Action (Device P) α) : Prop :=
  ∀ d : Device P, d.link.run.job.observed = true →
    match method d with
    | .ok _ d' => (d'.Cancelled ↔ d.link.run.interrupts 1 = true) ∧
      d'.link.run.job.Heard (d.link.run.job.reports ++ [0.0, 1.0])
    | .error _ d' => d'.link.run.job.Heard (d.link.run.job.reports ++ [0.0])

theorem not_cancelled_of_check {d d' : Device P} {u : Unit}
    (looked : onLink (Link.check true) d = .ok u d') : ¬ d'.Cancelled := by
  intro cancelled
  have same : d' = d := by
    have unchanged := final_onLink (Link.check true) d
    rw [looked, Link.final_check] at unchanged
    exact unchanged
  rw [same] at cancelled
  rw [onLink_of_error (Link.check_of_stopped ⟨rfl, cancelled⟩)] at looked
  cases looked

theorem countsOne_of_work (work : Action (Device P) α)
    (attends : ∀ r, Preserves (Link.Attends r ·.link) work)
    (looks : ∀ d x d', work d = .ok x d' → ¬ d'.Cancelled) :
    CountsOne (do
      onLink (Link.report (·.start 1))
      let x ← work
      onLink (Link.report (·.advance 1.0))
      pure x) := by
  intro d observed
  have begun := Link.started_heard observed
  let d₁ : Device P := { d with link := d.link.started }
  have start : onLink (Link.report (·.start 1)) d = .ok () d₁ := onLink_of_ok (Link.start_apply _)
  rw [bind_of_ok start]
  cases worked : work d₁ with
  | error e d₂ =>
    have left := (attends d₁.link.run).of_error (Link.attends_self _) worked
    rw [bind_of_error worked]
    exact left.serves.heard begun
  | ok x d₂ =>
    have left := (attends d₁.link.run).of_ok (Link.attends_self _) worked
    have complete := Link.finished_heard (left.serves.heard begun)
    have active : d₂.link.run.job.active = true := by simpa [Cancelled] using looks _ _ _ worked
    have second : d₂.link.run.interrupts 0 = d.link.run.interrupts 1 :=
      (left.interrupts 0).trans (Run.report_interrupts _ _ 0)
    rw [List.append_assoc] at complete
    rw [bind_of_ok worked]
    refine ⟨?_, complete⟩
    change d₂.link.finished.run.job.active = false ↔ _
    rw [Link.finished_inactive_iff, active, second]
    simp

theorem CountsOne.handed {method : Action (Device P) α} (counts : CountsOne method) {d : Device P}
    (observed : d.link.run.job.observed = true) {options : VolumeOptions}
    (single : options.singleOperation = true) :
    match method (d.handed options) with
    | .ok _ d' => (d'.Cancelled ↔ d.link.run.interrupts 2 = true) ∧
      d'.link.run.job.Heard (d.link.run.job.reports ++ [0.0, 0.0, 1.0])
    | .error _ d' => d'.link.run.job.Heard (d.link.run.job.reports ++ [0.0, 0.0]) := by
  have begun := Link.started_heard observed
  have handed : d.handed options = { d with link := d.link.started } := if_pos single
  have counted := counts { d with link := d.link.started } begun.observed
  have third : d.link.started.run.interrupts 1 = d.link.run.interrupts 2 := Run.report_interrupts _ _ 1
  dsimp only at counted
  rw [begun.reports, third, List.append_assoc, List.append_assoc] at counted
  rw [handed]
  exact counted

end Device

namespace Eventide.Presets

variable [Port P]

theorem download_countsOne (path : String) : Device.CountsOne (download (P := P) path) := by
  have loading (r : Run) := loading_of_steadfast (Link.attends_steadfast (P := P) r)
  have counts := Device.countsOne_of_work (P := P) (do
      let p ← pedal
      let preset ← read p path true
      Device.onLink (Link.check true)
      pure preset.toMessage)
    (fun r => pedal_preserves.bind fun p => ((loading r).read p path true).bind fun _ =>
      (check_preserves true).bind fun _ => Preserves.pure _ _)
    (by
      intro d x d' worked
      simp only [bind_eq_ok] at worked
      obtain ⟨p, d₁, -, preset, d₂, -, u, d₃, looked, rfl, rfl⟩ := worked
      exact Device.not_cancelled_of_check looked)
  simpa only [download, bind_assoc, pure_bind] using counts

theorem upload_countsOne (path : String) (data : Bytes) :
    Device.CountsOne (upload (P := P) path data) := by
  have saving (r : Run) := saving_of_steadfast (Link.attends_steadfast (P := P) r)
  have counts := Device.countsOne_of_work (P := P) (store path data true)
    (fun r => (saving r).store path data true)
    (by
      intro d u d' stored
      simp only [store, bind_eq_ok] at stored
      obtain ⟨p, _, -, id, _, -, index, _, -, message, _, -, _, _, -, _, _, -, _, _, -, looked⟩ := stored
      exact Device.not_cancelled_of_check looked)
  simpa only [upload, bind_pure_unit] using counts

end Eventide.Presets

namespace Mount

variable {m : Mount P}

theorem resolve_of_resolveFor {op : Operation} {path : String} {v : Volume P} {inner : String}
    (resolved : m.resolveFor op path = .ok (v, inner)) : m.resolve path = .ok (v, inner) := by
  unfold resolveFor at resolved
  split at resolved
  · cases resolved
  · split_ifs at resolved
    cases resolved
    assumption

/-- The helper starts and completes the job of a method that counts one part, once more each. It
looks for cancellation in between, just after the method's own completion was told. -/
theorem Guarded.told {op : Operation} {path : String} {method : Volume P → String → Action (Device P) α}
    {helper : Action (Mount P) α} (guarded : Guarded m op path method helper)
    (observed : m.device.link.run.job.observed = true) {v : Volume P}
    (leads : ∀ w inner, m.resolve path = .ok (w, inner) → w = v)
    (single : v.options.singleOperation = true) (counts : ∀ inner, Device.CountsOne (method v inner)) :
    Job.ToldUnless (·.device.link.run.job) m (m.device.link.run.interrupts 2) (helper m) := by
  cases resolved : m.resolveFor op path with
  | error e =>
    rw [guarded.unresolved e resolved]
    exact Job.toldUnless_of_error 0 (List.append_nil _).symm
  | ok place =>
    obtain ⟨w, inner⟩ := place
    obtain rfl := leads w inner (resolve_of_resolveFor resolved)
    by_cases cancelled : m.device.Cancelled
    · rw [guarded.before w inner resolved cancelled]
      exact Job.toldUnless_of_error 0 (List.append_nil _).symm
    have counted := (counts inner).handed observed single
    cases run : method w inner (m.device.handed w.options) with
    | error e d =>
      rw [run] at counted
      rw [guarded.failed w inner e d resolved cancelled run]
      exact Job.toldUnless_of_error 2 counted.reports
    | ok x d =>
      rw [run] at counted
      obtain ⟨still, counted⟩ := counted
      constructor
      · intro uninterrupted
        have active : ¬ d.Cancelled := by
          rw [still, uninterrupted]
          exact Bool.false_ne_true
        have complete : d.completed w.options = { d with link := d.link.finished } := if_pos single
        rw [guarded.completed w inner x d resolved cancelled run active, complete]
        refine Job.told_of_ok 2 1 ((Link.finished_heard counted).reports.trans ?_)
        rw [List.append_assoc]
        rfl
      · intro interrupted
        have stopped : (final (method w inner (m.device.handed w.options))).Cancelled := by
          rw [run]
          exact still.mpr interrupted
        rw [guarded.during w inner resolved cancelled (Device.interrupted_iff.mpr stopped), run]
        exact ⟨[0.0, 0.0, 1.0], _, _, rfl, counted.reports, Or.inr ⟨rfl, rfl⟩⟩

end Mount

namespace Eventide.Presets

def answeringMount : Mount VirtualPort where
  device := answering
  volumes := [presetVolume VirtualPort]

/-- The presets of the pedal that answers every message, for a job that is cancelled as its listener
hears of the completion of the volume. -/
def interruptedMount : Mount VirtualPort :=
  let run := { answering.link.run with hearings := [false, false, true] }
  { answeringMount with device := { answering with link := { answering.link with run } } }

example : (final (Mount.download "/preset/0" answeringMount)).device.link.run.job.reports =
    [0.0, 0.0, 1.0, 1.0] := by decide +kernel

end Eventide.Presets

end MidiStorage
