import MidiStorage.Proofs.Transfer.Ready

namespace MidiStorage

namespace Run

/-- The job is active, and nothing on the clock's script cancels it. -/
structure Calm (r : Run) : Prop where
  active : r.job.active = true
  uncancelled : ∀ tick ∈ r.clock.script, tick.cancels = false

theorem Calm.now {r : Run} (calm : r.Calm) : ∃ time r', now r = .ok time r' ∧ r'.Calm := by
  unfold Run.now
  cases script : r.clock.script with
  | nil => exact ⟨_, _, rfl, calm⟩
  | cons tick rest =>
    have first : tick.cancels = false := calm.uncancelled tick (by rw [script]; exact List.mem_cons_self ..)
    refine ⟨_, _, rfl, ?_⟩
    constructor
    · simp only [first, Bool.false_eq_true, ↓reduceIte]
      exact calm.active
    · intro later member
      exact calm.uncancelled later (by rw [script]; exact List.mem_cons_of_mem _ member)

theorem Calm.sleep {r : Run} (calm : r.Calm) (duration : Nat) :
    ∃ r', sleep duration r = .ok () r' ∧ r'.Calm := by
  refine ⟨_, rfl, calm.active, ?_⟩
  have same : (r.clock.sleep duration).script = r.clock.script := by
    unfold Clock.sleep
    cases script : r.clock.script with
    | nil => rfl
    | cons tick rest => exact script
  intro tick member
  exact calm.uncancelled tick (by rwa [← same])

theorem going_calm_if_watched (watched : Bool) : Going watched fun r => watched = true → r.Calm where
  now r calm := by
    cases watched with
    | true =>
      obtain ⟨time, r', read, calm'⟩ := (calm rfl).now
      exact ⟨time, r', read, fun _ => calm'⟩
    | false =>
      unfold Run.now
      cases r.clock.script with
      | nil => exact ⟨_, _, rfl, fun no => by cases no⟩
      | cons tick rest => exact ⟨_, _, rfl, fun no => by cases no⟩
  sleep r duration calm := by
    refine ⟨_, rfl, ?_⟩
    intro here
    obtain ⟨r', slept, calm'⟩ := (calm here).sleep duration
    cases slept
    exact calm'
  active r calm here := (calm here).active

/-- Calm, and no value that the job's listener hears is a moment of cancellation. -/
structure Serene (r : Run) : Prop extends Calm r where
  unheard : ∀ cancels ∈ r.hearings, cancels = false

namespace Serene

variable {r : Run}

theorem now (serene : r.Serene) : ∃ time r', now r = .ok time r' ∧ r'.Serene := by
  obtain ⟨time, r', read, calm⟩ := serene.toCalm.now
  have same := (now_hearings r.hearings).of_ok rfl read
  exact ⟨time, r', read, calm, by rw [same]; exact serene.unheard⟩

theorem sleep (serene : r.Serene) (duration : Nat) : ∃ r', sleep duration r = .ok () r' ∧ r'.Serene := by
  obtain ⟨r', slept, calm⟩ := serene.toCalm.sleep duration
  cases slept
  exact ⟨_, rfl, calm, serene.unheard⟩

theorem interrupts (serene : r.Serene) (value : Nat) : r.interrupts value = false := by
  unfold Run.interrupts
  rw [List.getD_eq_getElem?_getD]
  cases here : r.hearings[value]? with
  | none => rfl
  | some cancels => exact serene.unheard cancels (List.mem_of_getElem? here)

theorem report (serene : r.Serene) {change : Job Float → Job Float}
    (active : ∀ job, (change job).active = job.active) : (r.report change).Serene where
  active := by
    rw [report_active, active, serene.active, serene.interrupts]
    rfl
  uncancelled := serene.uncancelled
  unheard := fun cancels later => serene.unheard cancels (List.mem_of_mem_tail later)

theorem check (serene : r.Serene) (watched : Bool) : check watched r = .ok () r := by
  unfold Run.check
  rw [Action.bind_of_ok (Action.get_apply r)]
  simp only [serene.active, Bool.not_true, Bool.and_false, Bool.false_eq_true, ↓reduceIte]
  rfl

theorem pauseRounds (serene : r.Serene) (watched : Bool) (duration poll start rounds : Nat) :
    ∃ r', pauseRounds watched duration poll start rounds r = .ok () r' ∧ r'.Serene := by
  induction rounds generalizing r with
  | zero => exact ⟨r, rfl, serene⟩
  | succ rounds ih =>
    obtain ⟨time, r₁, read, serene₁⟩ := serene.now
    unfold Run.pauseRounds
    rw [Action.bind_of_ok (serene.check watched), Action.bind_of_ok read]
    by_cases ended : duration ≤ time - start
    · simp only [ended, ↓reduceIte]
      exact ⟨r₁, rfl, serene₁⟩
    · obtain ⟨r₂, slept, serene₂⟩ := serene₁.sleep (min poll (duration - (time - start)))
      simp only [ended, ↓reduceIte]
      rw [Action.bind_of_ok slept]
      exact ih serene₂

theorem pause (serene : r.Serene) (watched : Bool) (duration poll : Nat) :
    ∃ r', pause watched duration poll r = .ok () r' ∧ r'.Serene := by
  obtain ⟨start, r₁, read, serene₁⟩ := serene.now
  unfold Run.pause
  rw [Action.bind_of_ok read, Action.bind_of_ok (Action.get_apply r₁)]
  exact serene₁.pauseRounds watched duration poll start _

end Serene

theorem going_serene (watched : Bool) : Going watched Serene where
  now _ serene := serene.now
  sleep _ duration serene := serene.sleep duration
  active _ serene _ := serene.active

end Run

namespace Link

/-- The device was asked these requests, and this input waits to be read. Nothing is half done, and
nobody cancels the job. -/
structure Awaits (l : Link VirtualPort) (respond : List Bytes → Bytes → Reply)
    (requests : List Bytes) (input : Bytes) : Prop where
  serene : l.run.Serene
  plugged : l.port.unplugged = false
  device : l.port.respond = respond
  asked : l.port.requests = requests
  input : l.port.pending = input
  noRequest : l.port.framer.queue = []
  noMessage : l.framer.queue = []

variable {l : Link VirtualPort} {respond : List Bytes → Bytes → Reply} {requests : List Bytes}
  {input : Bytes}

theorem Awaits.withRun (awaits : l.Awaits respond requests input) {run : Run} (serene : run.Serene) :
    Awaits { l with run } respond requests input :=
  { awaits with serene }

theorem not_stopped_calm {l : Link VirtualPort} (calm : l.run.Calm) (watched : Bool) :
    ¬ Stopped watched l := by
  rintro ⟨-, inactive⟩
  rw [calm.active] at inactive
  cases inactive

def Unstopped (watched : Bool) (l : Link VirtualPort) : Prop :=
  watched = true → l.run.Calm ∧ ∀ earlier m, (l.port.respond earlier m).cancels = false

theorem Unstopped.going {watched : Bool} {l : Link VirtualPort} (unstopped : l.Unstopped watched) :
    ¬ Stopped watched l := by
  rintro ⟨rfl, inactive⟩
  rw [(unstopped rfl).1.active] at inactive
  cases inactive

theorem unwatched_unstopped (l : Link VirtualPort) : l.Unstopped false := by
  intro watched
  cases watched

theorem Awaits.check (awaits : l.Awaits respond requests input) (watched : Bool) :
    check watched l = .ok () l :=
  check_of_not_stopped (not_stopped_calm awaits.serene.toCalm watched)

theorem Awaits.pause (awaits : l.Awaits respond requests input) (watched : Bool) (duration : Nat) :
    ∃ l', pause watched duration l = .ok () l' ∧ l'.Awaits respond requests input := by
  obtain ⟨run, paused, serene⟩ := awaits.serene.pause watched duration l.timing.pollInterval
  unfold Link.pause
  rw [Action.bind_of_ok (Action.get_apply l), Action.bind_of_ok (onRun_of_ok paused)]
  exact ⟨_, rfl, { awaits with serene }⟩

theorem Awaits.send (awaits : l.Awaits respond requests []) {m : Bytes} (message : m.IsMessage)
    (harmless : (respond requests m).cancels = false) :
    ∃ l', send m l = .ok m.length l' ∧
      l'.Awaits respond (requests ++ [m]) (respond requests m).parts.flatten := by
  obtain ⟨framer, noRequest, written⟩ :=
    VirtualPort.write_message awaits.plugged awaits.noRequest message
  rw [awaits.device, awaits.asked, awaits.input, harmless, List.nil_append] at written
  have full : m ≠ [] := by
    rintro rfl
    exact Bytes.not_isMessage_nil message
  refine ⟨_, send_plugged awaits.plugged full, ?_⟩
  rw [written]
  exact ⟨awaits.serene, awaits.plugged, rfl, rfl, rfl, noRequest, awaits.noMessage⟩

end Link

namespace Exchange

variable {l : Link VirtualPort} {respond : List Bytes → Bytes → Reply} {requests : List Bytes}

theorem sendSlices_awaits (awaits : l.Awaits respond requests []) {m : Bytes}
    (message : m.IsMessage) (short : m.length ≤ Transfer.sliceSize)
    (harmless : (respond requests m).cancels = false) (watched : Bool) :
    ∃ l', sendSlices watched (m.slices Transfer.sliceSize) l = .ok () l' ∧
      l'.Awaits respond (requests ++ [m]) (respond requests m).parts.flatten := by
  obtain ⟨l', sent, awaits'⟩ := awaits.send message harmless
  have slices : m.slices Transfer.sliceSize = [m] := by
    obtain ⟨b, rest, split⟩ := message.exists_cons
    unfold Bytes.slices
    rw [split] at short ⊢
    rw [List.length_cons, Bytes.slicesWithin, List.take_of_length_le short,
      List.drop_of_length_le short]
    · cases rest.length <;> rfl
    · exact List.cons_ne_nil b rest
  refine ⟨l', ?_, awaits'⟩
  rw [slices, sendSlices, Action.bind_of_ok (awaits.check watched), Action.bind_of_ok sent]
  rfl

end Exchange

namespace Exchange

variable {l : Link VirtualPort} {respond : List Bytes → Bytes → Reply} {requests : List Bytes}

theorem collect_ready {reply : Bytes} (awaits : l.Awaits respond requests reply)
    (message : reply.IsMessage) {t : Transfer} (single : t.batch = false) :
    ∃ l', collect t l = .ok reply l' ∧ l'.Awaits respond requests [] := by
  obtain ⟨time, run, read, serene⟩ := awaits.serene.now
  have going := Link.not_stopped_calm (l := { l with run }) serene.toCalm t.watched
  obtain ⟨journal, discarded, heard⟩ := collect_pending awaits.noMessage
    (by rwa [awaits.input]) single (Link.onRun_of_ok read) going
  rw [awaits.input] at heard
  exact ⟨_, heard, serene, awaits.plugged, awaits.device, awaits.asked, rfl, awaits.noRequest, rfl⟩

theorem collect_silence (awaits : l.Awaits respond requests []) {t : Transfer}
    (single : t.batch = false) :
    ∃ l', collect t l = .error (.timedOut t.timeout) l' ∧ l'.Awaits respond requests [] := by
  obtain ⟨run, journal, serene, waited⟩ :=
    collect_nothing (Run.going_serene t.watched) awaits.input awaits.noMessage single awaits.serene
  exact ⟨_, waited, { awaits with serene }⟩

end Exchange

namespace Exchange

variable {l : Link VirtualPort} {t : Transfer}

theorem collect_answered (calm : t.watched = true → l.run.Calm) (message : l.port.pending.IsMessage)
    (noMessage : l.framer.queue = []) (single : t.batch = false) :
    ∃ framer run journal, framer.queue = [] ∧ collect t l = .ok l.port.pending
      { l with port := { l.port with pending := [] }, framer, run, journal } := by
  obtain ⟨time, run, read, calm'⟩ := (Run.going_calm_if_watched t.watched).now l.run calm
  have going : ¬ Link.Stopped t.watched { l with run } := by
    rintro ⟨watched, inactive⟩
    rw [(calm' watched).active] at inactive
    cases inactive
  obtain ⟨journal, discarded, heard⟩ :=
    collect_pending noMessage message single (Link.onRun_of_ok read) going
  exact ⟨_, run, journal, rfl, heard⟩

theorem collect_unanswered (calm : t.watched = true → l.run.Calm) (quiet : l.port.pending = [])
    (noMessage : l.framer.queue = []) (single : t.batch = false) :
    ∃ run journal, collect t l = .error (.timedOut t.timeout) { l with run, journal } := by
  obtain ⟨run, journal, -, waited⟩ :=
    collect_nothing (Run.going_calm_if_watched t.watched) quiet noMessage single calm
  exact ⟨run, journal, waited⟩

end Exchange

namespace Link

variable {l : Link VirtualPort} {respond : List Bytes → Bytes → Reply} {requests : List Bytes}

theorem Awaits.performUncached (awaits : l.Awaits respond requests []) {t : Transfer} {reply : Bytes}
    (uncached : t.cacheable = false) (single : t.batch = false) (request : t.raw.IsMessage)
    (short : t.raw.length ≤ Transfer.sliceSize) (answered : respond requests t.raw = { parts := [reply] })
    (message : reply.IsMessage) :
    ∃ l', withTransfer t Exchange.perform l = .ok reply l' ∧
      l'.Awaits respond (requests ++ [t.raw]) [] := by
  have harmless : (respond requests t.raw).cancels = false := by rw [answered]
  have ready : (respond requests t.raw).parts.flatten = reply := by
    rw [answered]
    exact List.append_nil reply
  obtain ⟨l₁, sent, awaits₁⟩ := Exchange.sendSlices_awaits awaits request short harmless t.watched
  rw [ready] at awaits₁
  obtain ⟨l₂, heard, awaits₂⟩ :=
    Exchange.collect_ready awaits₁ message (t := { t with phase := .receiving }) single
  exact ⟨l₂, withTransfer_of_ok (Exchange.perform_of_uncached uncached sent heard), awaits₂⟩

theorem Awaits.transmitAll (awaits : l.Awaits respond requests []) {m : Bytes} (message : m.IsMessage)
    (short : m.length ≤ Transfer.sliceSize) (silent : respond requests m = {}) (watched : Bool) :
    ∃ l', transmitAll m watched l = .ok () l' ∧ l'.Awaits respond (requests ++ [m]) [] := by
  have harmless : (respond requests m).cancels = false := by rw [silent]
  have quiet : (respond requests m).parts.flatten = [] := by rw [silent]; rfl
  obtain ⟨l₁, sent, awaits₁⟩ := Exchange.sendSlices_awaits awaits message short harmless watched
  rw [quiet] at awaits₁
  exact ⟨_, transmitAll_of_ok sent, awaits₁.serene, awaits₁.plugged, awaits₁.device, awaits₁.asked,
    awaits₁.input, awaits₁.noRequest, awaits₁.noMessage⟩

end Link

end MidiStorage
