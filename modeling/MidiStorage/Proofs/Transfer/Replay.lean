import MidiStorage.Port.Scripted
import MidiStorage.Proofs.Transfer.Gathering
import MidiStorage.Proofs.Transfer.Ready

namespace MidiStorage

open MidiStorage.Action

variable {P : Type}

namespace VirtualPort

variable {p : VirtualPort}

/-- Asked these messages in turn, the device does not cancel the job. -/
def Spares (p : VirtualPort) (messages : List Bytes) : Prop :=
  ∀ done m rest, messages = done ++ m :: rest → (p.respond (p.requests ++ done) m).cancels = false

theorem Spares.left {front back : List Bytes} (spares : p.Spares (front ++ back)) :
    p.Spares front := by
  rintro done m rest rfl
  exact spares done m (rest ++ back) (List.append_assoc ..)

theorem Spares.right {front back : List Bytes} (spares : p.Spares (front ++ back))
    {p' : VirtualPort} (device : p'.respond = p.respond) (asked : p'.requests = p.requests ++ front) :
    p'.Spares back := by
  rintro done m rest rfl
  rw [device, asked, List.append_assoc]
  exact spares (front ++ done) m rest (List.append_assoc ..).symm

theorem Spares.foldl_request {messages : List Bytes} (spares : p.Spares messages) :
    (messages.foldl request (p, false)).2 = false := by
  induction messages generalizing p with
  | nil => rfl
  | cons m messages ih =>
    have harmless := spares [] m messages rfl
    rw [List.append_nil] at harmless
    have first : request (p, false) m = (p.asked m, false) := Prod.ext rfl harmless
    have later : p.Spares ([m] ++ messages) := spares
    rw [List.foldl_cons, first]
    exact ih (later.right rfl rfl)

theorem Spares.write (plugged : p.unplugged = false) {front back : Bytes}
    (spares : p.Spares (p.framer.push (front ++ back)).queue) :
    (p.write front).cancels = false ∧
      (p.write front).port.Spares ((p.write front).port.framer.push back).queue := by
  have split : (p.framer.push (front ++ back)).queue =
      (p.framer.push front).queue ++ ((p.framer.push front).popAll.2.push back).queue := by
    rw [Framer.push_append, Framer.queue_push (p.framer.push front),
      Framer.queue_push (Framer.popAll _).2]
    rfl
  rw [split] at spares
  obtain ⟨pending, written⟩ := write_plugged plugged front
  constructor
  · unfold VirtualPort.write
    rw [if_neg (Bool.not_eq_true _ ▸ plugged)]
    exact Spares.foldl_request (p := { p with
      written := p.written ++ front, framer := (p.framer.push front).popAll.2 }) spares.left
  · rw [written]
    exact spares.right rfl rfl

theorem write_messages (plugged : p.unplugged = false) (noRequest : p.framer.queue = [])
    {ms : List Bytes} (whole : ∀ m ∈ ms, Bytes.IsMessage m) :
    (p.write ms.flatten).port.requests = p.requests ++ ms := by
  obtain ⟨pending, written⟩ := write_plugged plugged ms.flatten
  rw [written]
  change p.requests ++ (p.framer.push ms.flatten).queue = _
  rw [Framer.push_messages _ whole, noRequest, List.nil_append]

end VirtualPort

namespace Exchange

theorem sendSlices_spared {l : Link VirtualPort} (active : l.run.job.active = true)
    (plugged : l.port.unplugged = false) {slices : List Bytes} (full : [] ∉ slices)
    (spares : l.port.Spares (l.port.framer.push slices.flatten).queue) :
    ∃ l', sendSlices true slices l = .ok () l' ∧
      l'.port = slices.foldl (fun p slice => (p.write slice).port) l.port := by
  induction slices generalizing l with
  | nil => exact ⟨l, rfl, rfl⟩
  | cons slice rest ih =>
    rw [List.mem_cons, not_or] at full
    have going := Link.not_stopped_of_active active true
    obtain ⟨harmless, later⟩ := spares.write plugged
    have sent := Link.send_plugged plugged (Ne.symm full.1)
    rw [harmless] at sent
    obtain ⟨l', rest, port⟩ := ih (l := l.afterTurn (l.port.write slice).port false
      (some (.accepted slice))) active (VirtualPort.write_plugged_idle plugged slice).1 full.2 later
    refine ⟨l', ?_, port⟩
    rw [sendSlices, bind_of_ok (Link.check_of_not_stopped going), bind_of_ok sent]
    exact rest

end Exchange

namespace Link

theorem sendSysex_messages {k : Link VirtualPort} (active : k.started.run.job.active = true)
    (plugged : k.port.unplugged = false) (noRequest : k.port.framer.queue = []) {ms : List Bytes}
    (whole : ∀ m ∈ ms, Bytes.IsMessage m) (spares : k.port.Spares ms) :
    ∃ k', sendSysex ms.flatten k = .ok () k' ∧ k'.port.requests = k.port.requests ++ ms := by
  have positive : 0 < Transfer.sliceSize := by decide
  have full : [] ∉ Bytes.slices Transfer.sliceSize ms.flatten :=
    Bytes.slicesWithin_ne_nil positive _ _
  have joined : (Bytes.slices Transfer.sliceSize ms.flatten).flatten = ms.flatten :=
    Bytes.slices_flatten positive _
  have queue : (k.port.framer.push ms.flatten).queue = ms := by
    rw [Framer.push_messages _ whole, noRequest, List.nil_append]
  have spared : k.port.Spares
      (k.port.framer.push (Bytes.slices Transfer.sliceSize ms.flatten).flatten).queue := by
    rw [joined, queue]
    exact spares
  obtain ⟨k₁, sent, port⟩ := Exchange.sendSlices_spared (l := k.started)
    active plugged full spared
  refine ⟨_, sendSysex_of_ok sent, ?_⟩
  change k₁.port.requests = _
  rw [port, VirtualPort.write_flatten (p := k.started.port) plugged noRequest, joined]
  exact VirtualPort.write_messages plugged noRequest whole

/-- A dump, on a framer that is clean, is the messages that were queued before and those that were
heard until the device went idle, none of them left out. Played back to a device behind a virtual
port, whose replies to these messages do not cancel the job that is active once begun, it asks that
device exactly these messages. -/
theorem dump_replayed [Port P] [LawfulPort P] {l l' : Link P} {bytes : Bytes} (clean : l.framer.Clean)
    (dumped : receiveSysex l = .ok bytes l') :
    ∃ input ms, l'.delivered = l.delivered ++ input ∧ ms = (l.framer.push input).queue ∧ ms ≠ [] ∧
      (∀ m ∈ ms, Bytes.IsMessage m) ∧ bytes = ms.flatten ∧ l'.framer.queue = [] ∧
      ∀ k : Link VirtualPort, k.started.run.job.active = true → k.port.Spares ms →
        k.port.unplugged = false → k.port.framer.queue = [] →
        ∃ k', sendSysex bytes k = .ok () k' ∧ k'.port.requests = k.port.requests ++ ms := by
  cases heard : Exchange.collect l.dump l.started with
  | error e l₁ =>
    rw [receiveSysex_of_error heard] at dumped
    cases dumped
  | ok reply l₁ =>
    rw [receiveSysex_of_ok heard] at dumped
    cases dumped
    obtain ⟨ms, gathered, nothing, some, joined⟩ := Exchange.collect_gathers rfl heard
    obtain ⟨input, delivered, queue⟩ := gathered.all nothing
    have whole : ∀ m ∈ ms, Bytes.IsMessage m := by
      rw [queue]
      exact (clean.push input).queued
    refine ⟨input, ms, delivered, queue, some, whole, joined, nothing, ?_⟩
    intro k active spares plugged noRequest
    rw [joined]
    exact sendSysex_messages active plugged noRequest whole spares

def dumpingLink : Link ScriptedPort :=
  ofPort "scripted:0" { name := "scripted", reads := [
    .bytes [0x42, 0xF0, 1, 0xF8, 0xF7, 0xF0, 2, 0x90], .fault ⟨.wouldBlock, "later"⟩,
    .bytes [0xF0, 3], .fault ⟨.wouldBlock, "later"⟩, .bytes [0xF7, 0xF0]] }
    { Timing.standard with idleTimeout := 2, pollInterval := 1 }

theorem dumpingLink_replayed :
    let bytes : Bytes := [0xF0, 1, 0xF7, 0xF0, 3, 0xF7]
    let k := ofPort "virtual:0" (VirtualPort.silent "virtual") Timing.standard
    ∃ l' k', receiveSysex dumpingLink = .ok bytes l' ∧ l'.framer.queue = [] ∧
      sendSysex bytes k = .ok () k' ∧ k'.port.requests = [[0xF0, 1, 0xF7], [0xF0, 3, 0xF7]] := by
  intro bytes k
  have dumped : receiveSysex dumpingLink = .ok bytes (final (receiveSysex dumpingLink)) :=
    eq_ok_of_answer (by decide +kernel)
  have heard : (final (receiveSysex dumpingLink)).delivered =
      [0x42, 0xF0, 1, 0xF8, 0xF7, 0xF0, 2, 0x90, 0xF0, 3, 0xF7, 0xF0] := by decide +kernel
  obtain ⟨input, ms, delivered, queue, -, -, -, nothing, replays⟩ :=
    dump_replayed Framer.Clean.fresh dumped
  have all : input = [0x42, 0xF0, 1, 0xF8, 0xF7, 0xF0, 2, 0x90, 0xF0, 3, 0xF7, 0xF0] :=
    delivered.symm.trans heard
  have messages : ms = [[0xF0, 1, 0xF7], [0xF0, 3, 0xF7]] := by
    rw [queue, all]
    decide
  obtain ⟨k', sent, asked⟩ := replays k rfl (fun _ _ _ _ => rfl) rfl rfl
  rw [messages] at asked
  exact ⟨_, k', dumped, nothing, sent, asked⟩

end Link

end MidiStorage
