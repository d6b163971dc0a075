import Mathlib.Tactic.Common
import MidiStorage.Port.Virtual

namespace MidiStorage

namespace Framer

inductive Use
  | push (bytes : Bytes)
  | pop

def use (state : List Bytes × Framer) : Use → List Bytes × Framer
  | .push bytes => (state.1, state.2.push bytes)
  | .pop => (state.1 ++ state.2.pop.1.toList, state.2.pop.2)

def pushed (uses : List Use) : Bytes :=
  uses.flatMap fun
    | .push bytes => bytes
    | .pop => []

/-- The framer as if these messages had not been taken off its queue yet. -/
def putBack (messages : List Bytes) (f : Framer) : Framer :=
  { f with queue := messages ++ f.queue }

@[simp] theorem putBack_nil (f : Framer) : putBack [] f = f := rfl

theorem putBack_step (messages : List Bytes) (f : Framer) (b : UInt8) :
    (putBack messages f).step b = putBack messages (f.step b) := by
  obtain ⟨current, queue, discarded⟩ := f
  cases current <;> simp only [step, putBack, held] <;> split_ifs <;> simp [List.append_assoc]

theorem putBack_push (messages : List Bytes) (f : Framer) (s : Bytes) :
    (putBack messages f).push s = putBack messages (f.push s) := by
  induction s generalizing f with
  | nil => rfl
  | cons b s ih => rw [push_cons, push_cons, putBack_step, ih]

theorem putBack_pop (messages : List Bytes) (f : Framer) :
    putBack (messages ++ f.pop.1.toList) f.pop.2 = putBack messages f := by
  cases queue : f.queue with
  | nil => simp [pop, queue]
  | cons message rest => simp [pop, queue, putBack]

theorem putBack_popAll (messages : List Bytes) (f : Framer) :
    putBack (messages ++ f.popAll.1) f.popAll.2 = putBack messages f := by
  simp [popAll, putBack]

theorem putBack_use (state : List Bytes × Framer) (call : Use) :
    putBack (use state call).1 (use state call).2 =
      (putBack state.1 state.2).push (pushed [call]) := by
  cases call with
  | push bytes => simp [use, pushed, putBack_push]
  | pop => simpa [use, pushed] using putBack_pop state.1 state.2

theorem putBack_uses (state : List Bytes × Framer) (uses : List Use) :
    putBack (uses.foldl use state).1 (uses.foldl use state).2 =
      (putBack state.1 state.2).push (pushed uses) := by
  induction uses generalizing state with
  | nil => rfl
  | cons call uses ih =>
    have split : pushed (call :: uses) = pushed [call] ++ pushed uses := by simp [pushed]
    rw [List.foldl_cons, ih, putBack_use, split, push_append]

end Framer

namespace VirtualPort

inductive Event
  | write (bytes : Bytes)
  | read
  | inject (bytes : Bytes)
  | unplug

def after (p : VirtualPort) : Event → VirtualPort
  | .write bytes => (p.write bytes).port
  | .read => p.read.port
  | .inject bytes => p.inject bytes
  | .unplug => p.unplug

/-- The port's framer and the requests so far, together, are one framing of the record. -/
def Consistent (p : VirtualPort) : Prop :=
  Framer.putBack p.requests p.framer = Framer.push {} p.written

def asked (p : VirtualPort) (message : Bytes) : VirtualPort := (request (p, false) message).1

theorem foldl_request_port (p : VirtualPort) (cancelled : Bool) (messages : List Bytes) :
    (messages.foldl request (p, cancelled)).1 = messages.foldl asked p := by
  induction messages generalizing p cancelled with
  | nil => rfl
  | cons message messages ih => exact ih (p.asked message) (request (p, cancelled) message).2

theorem foldl_asked (p : VirtualPort) (messages : List Bytes) :
    ∃ pending, messages.foldl asked p =
      { p with requests := p.requests ++ messages, pending } := by
  induction messages generalizing p with
  | nil => exact ⟨p.pending, by rw [List.append_nil]; rfl⟩
  | cons message messages ih =>
    obtain ⟨pending, rest⟩ := ih (p.asked message)
    refine ⟨pending, ?_⟩
    rw [List.foldl_cons, rest]
    simp [asked, request]

theorem foldl_asked_apart (p : VirtualPort) (written : Bytes) (framer : Framer)
    (messages : List Bytes) :
    messages.foldl asked { p with written, framer } =
      { messages.foldl asked p with written, framer } := by
  induction messages generalizing p with
  | nil => rfl
  | cons message messages ih => exact ih (p.asked message)

theorem write_unplugged {p : VirtualPort} (unplugged : p.unplugged = true) (bytes : Bytes) :
    (p.write bytes).port = p := by
  simp [write, unplugged]

theorem write_port {p : VirtualPort} (plugged : p.unplugged = false) (bytes : Bytes) :
    (p.write bytes).port =
      { (p.framer.push bytes).queue.foldl asked p with
        written := p.written ++ bytes
        framer := (p.framer.push bytes).popAll.2 } := by
  unfold write
  simp only [plugged, Bool.false_eq_true, ↓reduceIte]
  rw [foldl_request_port, ← foldl_asked_apart, ← plugged]
  rfl

theorem write_plugged {p : VirtualPort} (plugged : p.unplugged = false) (bytes : Bytes) :
    ∃ pending, (p.write bytes).port =
      { p with
        written := p.written ++ bytes
        framer := (p.framer.push bytes).popAll.2
        requests := p.requests ++ (p.framer.push bytes).popAll.1
        pending } := by
  obtain ⟨pending, requested⟩ := foldl_asked p (p.framer.push bytes).queue
  refine ⟨pending, ?_⟩
  rw [write_port plugged, requested]
  rfl

theorem Consistent.write {p : VirtualPort} (consistent : p.Consistent) (bytes : Bytes) :
    (p.write bytes).port.Consistent := by
  cases plugged : p.unplugged with
  | true =>
    rw [write_unplugged plugged]
    exact consistent
  | false =>
    obtain ⟨pending, written⟩ := write_plugged plugged bytes
    rw [Consistent, written]
    change Framer.putBack (p.requests ++ (p.framer.push bytes).popAll.1)
      (p.framer.push bytes).popAll.2 = Framer.push {} (p.written ++ bytes)
    rw [Framer.putBack_popAll, Framer.push_append, ← consistent, Framer.putBack_push]

theorem Consistent.after {p : VirtualPort} (consistent : p.Consistent) (event : Event) :
    (p.after event).Consistent := by
  cases event with
  | write bytes => exact consistent.write bytes
  | read => exact consistent
  | inject bytes => exact consistent
  | unplug => exact consistent

theorem Consistent.foldl {p : VirtualPort} (consistent : p.Consistent) (events : List Event) :
    (events.foldl VirtualPort.after p).Consistent := by
  induction events generalizing p with
  | nil => exact consistent
  | cons event events ih => exact ih (consistent.after event)

theorem idle_after {p : VirtualPort} (idle : p.framer.queue = []) (event : Event) :
    (p.after event).framer.queue = [] := by
  cases event with
  | write bytes =>
    cases plugged : p.unplugged with
    | true => rw [VirtualPort.after, write_unplugged plugged, idle]
    | false =>
      obtain ⟨pending, written⟩ := write_plugged plugged bytes
      rw [VirtualPort.after, written]
      rfl
  | read => exact idle
  | inject bytes => exact idle
  | unplug => exact idle

theorem idle_foldl {p : VirtualPort} (idle : p.framer.queue = []) (events : List Event) :
    (events.foldl VirtualPort.after p).framer.queue = [] := by
  induction events generalizing p with
  | nil => exact idle
  | cons event events ih => exact ih (idle_after idle event)

theorem Consistent.requests_eq {p : VirtualPort} (consistent : p.Consistent)
    (idle : p.framer.queue = []) : p.requests = p.sentMessages := by
  have queue := congrArg Framer.queue consistent
  simpa [Framer.putBack, idle, sentMessages, Framer.messages] using queue

end VirtualPort

/-- However a stream is cut into pushes and whenever messages are popped, the framer finds what one
push of the whole stream finds; and whatever happens to a virtual port, its device is handed exactly
the messages among the bytes written. -/
theorem framing_independent_of_chunks :
    (∀ uses : List Framer.Use,
      let (popped, f) := uses.foldl Framer.use ([], {})
      let whole := Framer.push {} (Framer.pushed uses)
      popped ++ f.queue = whole.queue ∧ f.isReceiving = whole.isReceiving ∧
        f.discarded = whole.discarded) ∧
    (∀ (name : String) (respond : List Bytes → Bytes → Reply) (events : List VirtualPort.Event),
      let p := events.foldl VirtualPort.after { name, respond }
      p.requests = p.sentMessages) := by
  constructor
  · intro uses
    have whole := Framer.putBack_uses ([], {}) uses
    rw [Framer.putBack_nil] at whole
    rw [← whole]
    exact ⟨rfl, rfl, rfl⟩
  · intro name respond events
    have fresh : VirtualPort.Consistent { name, respond } := rfl
    exact (fresh.foldl events).requests_eq (VirtualPort.idle_foldl rfl events)

end MidiStorage
