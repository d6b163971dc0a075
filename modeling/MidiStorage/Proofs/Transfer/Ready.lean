import MidiStorage.Proofs.Framing.Chunks
import MidiStorage.Proofs.Framing.Whole
import MidiStorage.Proofs.Transfer.Exchanges
import MidiStorage.Proofs.Transfer.Receiving

namespace MidiStorage

open MidiStorage.Action

namespace VirtualPort

theorem write_plugged_idle {p : VirtualPort} (plugged : p.unplugged = false) (bytes : Bytes) :
    (p.write bytes).port.unplugged = false ∧ (p.write bytes).port.framer.queue = [] := by
  obtain ⟨pending, written⟩ := write_plugged plugged bytes
  rw [written]
  exact ⟨plugged, rfl⟩

theorem write_append {p : VirtualPort} (plugged : p.unplugged = false) (front back : Bytes) :
    ((p.write front).port.write back).port = (p.write (front ++ back)).port := by
  have later : (p.write front).port.unplugged = false := (write_plugged_idle plugged front).1
  rw [write_port later back, write_port plugged, write_port plugged]
  -- what the first write queued stands before what the second one completes
  have framed : p.framer.push (front ++ back) = Framer.putBack (p.framer.push front).queue
      ((p.framer.push front).popAll.2.push back) := by
    rw [Framer.push_append, ← Framer.putBack_push]
    simp [Framer.putBack, Framer.popAll]
  rw [framed]
  simp only [Framer.putBack, Framer.popAll, List.foldl_append, foldl_asked_apart, List.append_assoc]

theorem write_nil {p : VirtualPort} (plugged : p.unplugged = false)
    (noRequest : p.framer.queue = []) : (p.write []).port = p := by
  rw [write_port plugged, Framer.push_nil, noRequest, List.append_nil]
  obtain ⟨name, respond, requests, ⟨current, queue, discarded⟩, pending, written, unplugged⟩ := p
  cases noRequest
  rfl

theorem write_flatten {p : VirtualPort} (plugged : p.unplugged = false)
    (noRequest : p.framer.queue = []) (slices : List Bytes) :
    slices.foldl (fun p slice => (p.write slice).port) p = (p.write slices.flatten).port := by
  induction slices generalizing p with
  | nil => exact (write_nil plugged noRequest).symm
  | cons slice slices ih =>
    obtain ⟨plugged', noRequest'⟩ := write_plugged_idle plugged slice
    rw [List.foldl_cons, ih plugged' noRequest', write_append plugged, List.flatten_cons]

theorem write_message {p : VirtualPort} (plugged : p.unplugged = false)
    (noRequest : p.framer.queue = []) {m : Bytes} (message : m.IsMessage) :
    ∃ framer, framer.queue = [] ∧ p.write m =
      { result := .ok m.length
        port := { p with
          written := p.written ++ m
          framer
          requests := p.requests ++ [m]
          pending := p.pending ++ (p.respond p.requests m).parts.flatten }
        cancels := (p.respond p.requests m).cancels } := by
  obtain ⟨discarded, pushed⟩ := p.framer.push_message message
  rw [noRequest, List.nil_append] at pushed
  refine ⟨{ current := none, queue := [], discarded }, rfl, ?_⟩
  unfold VirtualPort.write
  simp only [plugged, Bool.false_eq_true, ↓reduceIte, pushed, Framer.popAll, List.foldl_cons,
    List.foldl_nil, request, Bool.false_or]

theorem foldl_request_harmless {p : VirtualPort}
    (harmless : ∀ earlier m, (p.respond earlier m).cancels = false) (messages : List Bytes) :
    (messages.foldl request (p, false)).2 = false := by
  induction messages generalizing p with
  | nil => rfl
  | cons message messages ih =>
    have first : request (p, false) message = (p.asked message, false) :=
      Prod.ext rfl (harmless p.requests message)
    rw [List.foldl_cons, first]
    exact ih (p := p.asked message) harmless

theorem write_harmless {p : VirtualPort} (harmless : ∀ earlier m, (p.respond earlier m).cancels = false)
    (bytes : Bytes) : (p.write bytes).cancels = false := by
  unfold write
  split_ifs with unplugged
  · rfl
  · exact foldl_request_harmless (p := { p with
      written := p.written ++ bytes, framer := (p.framer.push bytes).popAll.2 }) harmless _

theorem write_respond (p : VirtualPort) (bytes : Bytes) : (p.write bytes).port.respond = p.respond := by
  cases plugged : p.unplugged with
  | true => rw [write_unplugged plugged]
  | false =>
    obtain ⟨pending, written⟩ := write_plugged plugged bytes
    rw [written]

end VirtualPort

namespace Link

theorem send_plugged {l : Link VirtualPort} (plugged : l.port.unplugged = false) {bytes : Bytes}
    (full : bytes ≠ []) :
    send bytes l = .ok bytes.length (l.afterTurn (l.port.write bytes).port
      (l.port.write bytes).cancels (some (.accepted bytes))) := by
  obtain ⟨b, rest, rfl⟩ := List.exists_cons_of_ne_nil full
  have whole : (Port.write l.port (b :: rest)).result = .ok (rest.length + 1) := by
    change (l.port.write (b :: rest)).result = _
    unfold VirtualPort.write
    simp only [plugged, Bool.false_eq_true, ↓reduceIte, List.length_cons]
  let after := l.afterTurn (l.port.write (b :: rest)).port (l.port.write (b :: rest)).cancels
    (some (.accepted (b :: rest)))
  have accepted : writeOnce (b :: rest) l = .ok (.ok (rest.length + 1)) after := by
    have all : (b :: rest).take (rest.length + 1) = b :: rest :=
      List.take_of_length_le (Nat.le_refl _)
    unfold writeOnce
    simp only [whole, all]
    rfl
  -- a virtual port never interrupts a write, and takes everything in the first round
  have sent : sendRounds (rest.length + 1) (b :: rest) l = .ok () after := by
    rw [sendRounds, bind_of_ok accepted]
    change sendRounds rest.length ((b :: rest).drop (b :: rest).length) after = _
    rw [List.drop_length, sendRounds]
    rfl
  unfold send
  rw [bind_of_ok (get_apply l)]
  change (sendRounds (rest.length + 1) (b :: rest) >>= _) l = _
  rw [bind_of_ok sent]
  rfl

theorem readOnce_pending (l : Link VirtualPort) :
    ∃ journal, readOnce l = .ok (.ok (l.port.pending.take Port.readSize))
      { l with port := { l.port with pending := l.port.pending.drop Port.readSize }, journal } :=
  ⟨_, rfl⟩

theorem readRounds_pending (l : Link VirtualPort) {rounds : Nat}
    (enough : l.port.pending.length < rounds) (got : Bytes) :
    ∃ journal, readRounds rounds got l = .ok (got ++ l.port.pending)
      { l with port := { l.port with pending := [] }, journal } := by
  induction rounds generalizing l got with
  | zero => omega
  | succ rounds ih =>
    have size : 0 < Port.readSize := by decide
    obtain ⟨journal, once⟩ := readOnce_pending l
    rw [readRounds, bind_of_ok once]
    cases front : l.port.pending.take Port.readSize with
    | nil =>
      have nothing : l.port.pending = [] := by
        rcases List.take_eq_nil_iff.mp front with zero | nothing
        · omega
        · exact nothing
      rw [nothing, List.append_nil, List.drop_nil]
      exact ⟨journal, rfl⟩
    | cons b bytes =>
      have fewer : (l.port.pending.drop Port.readSize).length < rounds := by
        have some : l.port.pending ≠ [] := by
          intro none
          rw [none, List.take_nil] at front
          cases front
        have positive := List.length_pos_iff.mpr some
        rw [List.length_drop]
        omega
      obtain ⟨journal', rest⟩ := ih
        { l with port := { l.port with pending := l.port.pending.drop Port.readSize }, journal }
        fewer (got ++ b :: bytes)
      have whole : got ++ l.port.pending = got ++ b :: bytes ++ l.port.pending.drop Port.readSize := by
        rw [List.append_assoc, ← front, List.take_append_drop]
      rw [whole]
      exact ⟨journal', rest⟩

theorem poll_pending (l : Link VirtualPort) :
    ∃ journal, poll l = .ok l.port.pending { l with port := { l.port with pending := [] }, journal } := by
  unfold poll
  rw [bind_of_ok (get_apply l)]
  exact readRounds_pending l (Nat.lt_succ_self l.port.pending.length) []

theorem pollFramer_pending (l : Link VirtualPort) :
    ∃ journal, pollFramer l = .ok ()
      { l with
        port := { l.port with pending := [] }
        framer := l.framer.push l.port.pending
        journal } := by
  obtain ⟨journal, polled⟩ := poll_pending l
  refine ⟨journal, ?_⟩
  unfold pollFramer
  rw [bind_of_ok polled]
  rfl

end Link

namespace Exchange

theorem collect_pending {l : Link VirtualPort} (noMessage : l.framer.queue = [])
    (message : l.port.pending.IsMessage) {t : Transfer} (single : t.batch = false) {time : Nat}
    {run : Run} (read : Link.now l = .ok time { l with run })
    (going : ¬ Link.Stopped t.watched { l with run }) :
    ∃ journal discarded, collect t l = .ok l.port.pending
      { l with
        port := { l.port with pending := [] }
        framer := { current := none, queue := [], discarded }
        run
        journal } := by
  obtain ⟨journal, polled⟩ := Link.pollFramer_pending { l with run }
  obtain ⟨discarded, pushed⟩ := l.framer.push_message message
  rw [noMessage, List.nil_append] at pushed
  refine ⟨journal, discarded, ?_⟩
  unfold collect
  rw [bind_of_ok read, bind_of_ok (get_apply _)]
  simp only [Clock.rounds_zero_add]
  rw [collectRounds_succ, bind_of_ok (Link.check_of_not_stopped going), bind_of_ok polled, single,
    bind_of_ok (takeMessages_single _)]
  simp only [pushed, Framer.pop, Option.toList_some, Bool.not_false, List.isEmpty_cons,
    Bool.and_self, ↓reduceIte, List.flatten_cons, List.flatten_nil, List.append_nil, pure_apply]

end Exchange

/-- Runs in which a wait goes on: the clock and a sleep lead to no other, and a watched job is
active. -/
structure Run.Going (watched : Bool) (C : Run → Prop) : Prop where
  now (r : Run) : C r → ∃ time r', Run.now r = .ok time r' ∧ C r'
  sleep (r : Run) (duration : Nat) : C r → ∃ r', Run.sleep duration r = .ok () r' ∧ C r'
  active (r : Run) : C r → watched = true → r.job.active = true

namespace Exchange

theorem collectRounds_nothing {C : Run → Prop} {t : Transfer} (going : Run.Going t.watched C)
    {l : Link VirtualPort} (quiet : l.port.pending = []) (noMessage : l.framer.queue = [])
    (single : t.batch = false) (calm : C l.run) (rounds since : Nat) :
    ∃ run journal, C run ∧
      collectRounds t rounds since [] l = .error (.timedOut t.timeout) { l with run, journal } := by
  -- with no message so far the end of the rounds is a timeout as well, so no bound on them is needed
  induction rounds generalizing l with
  | zero => exact ⟨l.run, l.journal, calm, rfl⟩
  | succ rounds ih =>
    have awake : ¬ Link.Stopped t.watched l := by
      rintro ⟨watched, inactive⟩
      rw [going.active l.run calm watched] at inactive
      cases inactive
    obtain ⟨journal, polled⟩ := Link.pollFramer_pending l
    have same : { l with
        port := { l.port with pending := [] }, framer := l.framer.push l.port.pending, journal } =
        { l with journal } := by
      rw [quiet, Framer.push_nil, ← quiet]
    rw [same] at polled
    have nothing : takeMessages false { l with journal } = .ok [] { l with journal } := by
      rw [takeMessages_single]
      simp only [Framer.pop, noMessage, Option.toList_none]
    obtain ⟨time, r₁, read, calm₁⟩ := going.now l.run calm
    have looked : Link.now { l with journal } = .ok time { l with journal, run := r₁ } :=
      Link.onRun_of_ok read
    rw [collectRounds_succ, bind_of_ok (Link.check_of_not_stopped awake), bind_of_ok polled, single,
      bind_of_ok nothing]
    simp only [Bool.not_false, List.isEmpty_nil, Bool.not_true, Bool.and_false, Bool.false_eq_true,
      ↓reduceIte, List.append_nil]
    unfold goOn
    rw [bind_of_ok (get_apply _)]
    simp only [List.isEmpty_nil, ↓reduceIte]
    rw [bind_of_ok looked]
    by_cases late : t.timeout ≤ time - since
    · simp only [late, ↓reduceIte]
      exact ⟨r₁, journal, calm₁, rfl⟩
    · obtain ⟨r₂, slept, calm₂⟩ := going.sleep r₁
        (min l.timing.pollInterval (t.timeout - (time - since))) calm₁
      have rested : Link.sleep (min l.timing.pollInterval (t.timeout - (time - since)))
          { l with journal, run := r₁ } = .ok () { l with journal, run := r₂ } :=
        Link.onRun_of_ok slept
      simp only [late, ↓reduceIte]
      rw [bind_of_ok rested]
      exact ih (l := { l with journal, run := r₂ }) quiet noMessage calm₂

theorem collect_nothing {C : Run → Prop} {t : Transfer} (going : Run.Going t.watched C)
    {l : Link VirtualPort} (quiet : l.port.pending = []) (noMessage : l.framer.queue = [])
    (single : t.batch = false) (calm : C l.run) :
    ∃ run journal, C run ∧
      collect t l = .error (.timedOut t.timeout) { l with run, journal } := by
  obtain ⟨start, r₁, read, calm₁⟩ := going.now l.run calm
  have looked : Link.now l = .ok start { l with run := r₁ } := Link.onRun_of_ok read
  unfold collect
  rw [bind_of_ok looked, bind_of_ok (get_apply _)]
  exact collectRounds_nothing (l := { l with run := r₁ }) going quiet noMessage single calm₁ _ start

end Exchange

end MidiStorage
