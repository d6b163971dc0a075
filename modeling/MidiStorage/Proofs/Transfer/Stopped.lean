import MidiStorage.Port.Virtual
import MidiStorage.Proofs.Transfer.Exchanges
import MidiStorage.Proofs.Transfer.Receiving

namespace MidiStorage

open MidiStorage.Action

variable {P : Type}

theorem Run.now_inactive {r : Run} (inactive : r.job.active = false) :
    ∃ time r', now r = .ok time r' ∧ r'.job.active = false := by
  unfold now
  cases r.clock.script with
  | nil => exact ⟨_, r, rfl, inactive⟩
  | cons tick rest =>
    refine ⟨_, _, rfl, ?_⟩
    dsimp only
    split_ifs with cancels
    · rfl
    · exact inactive

def Link.Untouched (l l' : Link P) : Prop := ∃ run cache, l' = { l with run, cache }

namespace Exchange

variable {l : Link P} {t : Transfer}

/-- The call ended as cancelled. Time may have passed, but the port and the framer are as before,
and so are the bytes of the transfer. -/
def Refused (l : Link P) (t : Transfer) (result : EStateM.Result Failure (Exchange P) Unit) : Prop :=
  ∃ run, result = .error .cancelled ⟨{ l with run }, { t with phase := .finished }⟩

theorem refused_iff {result : EStateM.Result Failure (Exchange P) Unit} {reason : Prop}
    (refuses : reason → Refused l t result) (succeeds : ¬ reason → ∃ t', result = .ok () ⟨l, t'⟩) :
    (Refused l t result ↔ reason) ∧ l.Untouched (final result).link := by
  by_cases holds : reason
  · have refused := refuses holds
    refine ⟨⟨fun _ => holds, fun _ => refused⟩, ?_⟩
    obtain ⟨run, rfl⟩ := refused
    exact ⟨run, l.cache, rfl⟩
  · obtain ⟨t', rfl⟩ := succeeds holds
    refine ⟨⟨?_, fun here => absurd here holds⟩, l.run, l.cache, rfl⟩
    rintro ⟨run, refused⟩
    cases refused

variable [Port P]

theorem sendSlices_stopped {watched : Bool} (stopped : l.Stopped watched) {bytes : Bytes}
    (some : bytes ≠ []) :
    sendSlices watched (bytes.slices Transfer.sliceSize) l = .error .cancelled l := by
  obtain ⟨b, rest, rfl⟩ := List.exists_cons_of_ne_nil some
  unfold Bytes.slices
  rw [List.length_cons, Bytes.slicesWithin, sendSlices, bind_of_error (Link.check_of_stopped stopped)]
  exact List.cons_ne_nil b rest

theorem collect_stopped (stopped : l.Stopped t.watched) :
    ∃ run, collect t l = .error .cancelled { l with run } := by
  obtain ⟨watched, inactive⟩ := stopped
  obtain ⟨time, run, read, still⟩ := Run.now_inactive inactive
  have looked : Link.now l = .ok time { l with run } := Link.onRun_of_ok read
  have stopped' : Link.Stopped t.watched { l with run } := ⟨watched, still⟩
  refine ⟨run, ?_⟩
  unfold collect
  rw [bind_of_ok looked, bind_of_ok (get_apply _)]
  simp only [Clock.rounds_zero_add]
  rw [collectRounds_succ, bind_of_error (Link.check_of_stopped stopped')]

theorem transmit_stopped (stopped : l.Stopped t.watched) (some : t.raw ≠ []) :
    Refused l t (transmit ⟨l, t⟩) :=
  ⟨l.run, transmit_of_error (sendSlices_stopped stopped some)⟩

theorem transmit_nothing (nothing : t.raw = []) :
    transmit ⟨l, t⟩ = .ok () ⟨l, { t with phase := .waiting }⟩ := by
  apply transmit_of_ok
  rw [nothing]
  rfl

theorem receive_stopped (stopped : l.Stopped t.watched) : Refused l t (receive ⟨l, t⟩) := by
  obtain ⟨run, cancelled⟩ := collect_stopped (t := { t with phase := .receiving }) stopped
  exact ⟨run, receive_of_error cancelled⟩

theorem perform_stopped (stopped : l.Stopped t.watched) (unknown : l.remembered t = none) :
    Refused l t (perform ⟨l, t⟩) := by
  by_cases nothing : t.raw = []
  · obtain ⟨run, cancelled⟩ := receive_stopped (t := { t with phase := .waiting }) stopped
    refine ⟨run, ?_⟩
    rw [perform_of_unknown unknown, bind_of_ok (transmit_nothing nothing), bind_of_error cancelled]
  · obtain ⟨run, cancelled⟩ := transmit_stopped stopped nothing
    refine ⟨run, ?_⟩
    rw [perform_of_unknown unknown, bind_of_error cancelled]

end Exchange

namespace Link

variable {l : Link P}

/-- The same of a call on behalf of the job, where the replies may have been forgotten as well. -/
def Refused {α : Type} (l : Link P) (result : EStateM.Result Failure (Link P) α) : Prop :=
  ∃ l', result = .error .cancelled l' ∧ l.Untouched l'

theorem refused_iff {α : Type} {result : EStateM.Result Failure (Link P) α} {reason : Prop}
    (refuses : reason → l.Refused result)
    (succeeds : ¬ reason → ∃ x l', result = .ok x l' ∧ l.Untouched l') :
    (l.Refused result ↔ reason) ∧ l.Untouched (final result) := by
  by_cases holds : reason
  · have refused := refuses holds
    refine ⟨⟨fun _ => holds, fun _ => refused⟩, ?_⟩
    obtain ⟨l', rfl, untouched⟩ := refused
    exact untouched
  · obtain ⟨x, l', rfl, untouched⟩ := succeeds holds
    refine ⟨⟨?_, fun here => absurd here holds⟩, untouched⟩
    rintro ⟨l₁, refused, -⟩
    cases refused

variable [Port P]

theorem transact_stopped (inactive : l.run.job.active = false) (bytes : Bytes) (timeout : Nat)
    (unknown : l.remembered { raw := bytes, timeout, watched := true } = none) :
    l.Refused (transact bytes timeout true l) := by
  obtain ⟨run, cancelled⟩ := Exchange.perform_stopped ⟨rfl, inactive⟩ unknown
  exact ⟨_, withTransfer_of_error cancelled, run, l.cache, rfl⟩

theorem transact_of_remembered {bytes reply : Bytes} {timeout : Nat} {watched : Bool}
    (known : l.remembered { raw := bytes, timeout, watched } = some reply) :
    transact bytes timeout watched l = .ok reply l :=
  withTransfer_of_ok (Exchange.perform_of_remembered known)

theorem sendSysex_stopped (inactive : l.run.job.active = false) (bytes : Bytes) (some : bytes ≠ []) :
    l.Refused (sendSysex bytes l) := by
  -- a job that begins is as cancelled as before
  have stopped : l.started.Stopped true := ⟨rfl, Link.started_inactive inactive⟩
  have cancelled := sendSysex_of_error (Exchange.sendSlices_stopped stopped some)
  exact ⟨_, cancelled, l.started.run, l.cache.clear, rfl⟩

theorem sendSysex_nothing : ∃ l', sendSysex [] l = .ok () l' ∧ l.Untouched l' :=
  ⟨_, sendSysex_of_ok rfl, _, l.cache.clear, rfl⟩

theorem receiveSysex_stopped (inactive : l.run.job.active = false) : l.Refused (receiveSysex l) := by
  have stopped : l.started.Stopped l.dump.watched := ⟨rfl, Link.started_inactive inactive⟩
  obtain ⟨run, cancelled⟩ := Exchange.collect_stopped stopped
  exact ⟨_, receiveSysex_of_error cancelled, run, l.cache, rfl⟩

/-- A call that finds its job cancelled is refused, except for a send of nothing and for an exchange
that is answered from memory. In any case the port, the framer and the journal stay as they are. -/
theorem stopped_refused_iff (l : Link P) (t : Transfer) (bytes : Bytes) (timeout : Nat)
    (watched : t.watched = true) (inactive : l.run.job.active = false) :
    (Exchange.Refused l t (Exchange.transmit ⟨l, t⟩) ↔ t.raw ≠ []) ∧
    Exchange.Refused l t (Exchange.receive ⟨l, t⟩) ∧
    (Exchange.Refused l t (Exchange.perform ⟨l, t⟩) ↔ l.remembered t = none) ∧
    (l.Refused (transact bytes timeout true l) ↔
      l.remembered { raw := bytes, timeout, watched := true } = none) ∧
    (l.Refused (sendSysex bytes l) ↔ bytes ≠ []) ∧
    l.Refused (receiveSysex l) ∧
    l.Untouched (final (Exchange.transmit ⟨l, t⟩)).link ∧
    l.Untouched (final (Exchange.perform ⟨l, t⟩)).link ∧
    l.Untouched (final (transact bytes timeout true l)) ∧
    l.Untouched (final (sendSysex bytes l)) := by
  have stopped : l.Stopped t.watched := ⟨watched, inactive⟩
  obtain ⟨sends, sending⟩ := Exchange.refused_iff (Exchange.transmit_stopped stopped)
    fun nothing => ⟨_, Exchange.transmit_nothing (not_not.mp nothing)⟩
  obtain ⟨performs, performing⟩ := Exchange.refused_iff (Exchange.perform_stopped stopped) <| by
    intro known
    obtain ⟨reply, known⟩ := Option.ne_none_iff_exists'.mp known
    exact ⟨_, Exchange.perform_of_remembered known⟩
  obtain ⟨transacts, transacting⟩ := refused_iff (transact_stopped inactive bytes timeout) <| by
    intro known
    obtain ⟨reply, known⟩ := Option.ne_none_iff_exists'.mp known
    exact ⟨reply, l, transact_of_remembered known, l.run, l.cache, rfl⟩
  obtain ⟨posts, posting⟩ := refused_iff (sendSysex_stopped inactive bytes) <| by
    intro nothing
    rw [not_not.mp nothing]
    obtain ⟨l', sent, untouched⟩ := sendSysex_nothing (l := l)
    exact ⟨(), l', sent, untouched⟩
  exact ⟨sends, Exchange.receive_stopped stopped, performs, transacts, posts,
    receiveSysex_stopped inactive, sending, performing, transacting, posting⟩

def stoppedLink : Link VirtualPort :=
  { ofPort "virtual:0" ((VirtualPort.silent "virtual").inject [0xF0, 5, 0xF7]) Timing.standard with
    framer := { queue := [[0xF0, 4, 0xF7]] }
    cache := { enabled := true, entries := [([0xF0, 16, 0xF7], [0xF0, 1, 0xF7])] }
    run := { job := (Job.create true).cancel } }

/-- The remembered request and the empty message go through, the same request uncached and the
message that carries it do not. -/
theorem stoppedLink_refused :
    let t : Transfer := { raw := [0xF0, 16, 0xF7], timeout := 100, watched := true }
    let uncached : Transfer := { t with cacheable := false }
    ¬ Exchange.Refused stoppedLink t (Exchange.perform ⟨stoppedLink, t⟩) ∧
      ¬ stoppedLink.Refused (transact t.raw 100 true stoppedLink) ∧
      ¬ stoppedLink.Refused (sendSysex [] stoppedLink) ∧
      Exchange.Refused stoppedLink uncached (Exchange.perform ⟨stoppedLink, uncached⟩) ∧
      Exchange.Refused stoppedLink t (Exchange.transmit ⟨stoppedLink, t⟩) ∧
      stoppedLink.Refused (sendSysex t.raw stoppedLink) := by
  intro t uncached
  have known : stoppedLink.remembered t = some [0xF0, 1, 0xF7] := by decide +kernel
  have unknown : stoppedLink.remembered uncached = none := by decide +kernel
  obtain ⟨sends, -, performs, transacts, posts, -⟩ :=
    stopped_refused_iff stoppedLink t t.raw 100 rfl rfl
  obtain ⟨-, -, fresh, -, empty, -⟩ := stopped_refused_iff stoppedLink uncached [] 100 rfl rfl
  have some : t.raw ≠ [] := List.cons_ne_nil _ _
  refine ⟨?_, ?_, fun refused => empty.mp refused rfl, fresh.mpr unknown, sends.mpr some, posts.mpr some⟩
  · intro refused
    rw [performs.mp refused] at known
    cases known
  · intro refused
    rw [transacts.mp refused] at known
    cases known

end Link

end MidiStorage
