import Mathlib.Algebra.Ring.Nat
import MidiStorage.Proofs.Framing.Chunks
import MidiStorage.Proofs.Framing.Whole

namespace MidiStorage.Framer

open Bytes

/-- The bytes that a framer has an answer for, real-time bytes apart. -/
def total (f : Framer) : Nat := f.discarded + (f.queue.map List.length).sum + f.held.length

theorem total_step (f : Framer) (b : UInt8) :
    (f.step b).total = f.total + if isRealtime b then 0 else 1 := by
  obtain ⟨current, queue, discarded⟩ := f
  by_cases realtime : isRealtime b = true
  · rw [step, if_pos realtime, if_pos realtime, Nat.add_zero]
  rw [if_neg realtime]
  by_cases start : b = sysexStart
  · -- a restart discards all that was held, and holds the start
    have opened (discarded : Nat) : held { current := some [], queue, discarded } = [sysexStart] := rfl
    simp only [step, if_neg realtime, if_pos start, total, opened, List.length_singleton]
    omega
  cases current with
  | none =>
    simp only [step, if_neg realtime, if_neg start, total, held, List.length_nil]
    omega
  | some body =>
    simp only [step, if_neg realtime, if_neg start, total]
    split_ifs with ends data
    · simp only [held, List.map_append, List.sum_append, List.map_cons, List.map_nil, List.sum_singleton,
        List.length_append, List.length_singleton, List.length_nil]
      omega
    · simp only [held, List.length_cons, List.length_reverse]
      omega
    · simp only [held, List.length_nil]
      omega

theorem total_push (f : Framer) (s : Bytes) : (f.push s).total = f.total + s.withoutRealtime.length := by
  induction s generalizing f with
  | nil => rfl
  | cons b s ih =>
    rw [push_cons, ih, total_step]
    unfold withoutRealtime
    cases realtime : isRealtime b with
    | true => simp [realtime]
    | false =>
      simp only [realtime, List.filter_cons, Bool.not_false, ↓reduceIte, Bool.false_eq_true,
        List.length_cons]
      omega

theorem step_sublist {f : Framer} {s : Bytes} (part : (f.queue.flatten ++ f.held).Sublist s) (b : UInt8) :
    ((f.step b).queue.flatten ++ (f.step b).held).Sublist (s ++ [b]) := by
  have queued : f.queue.flatten.Sublist s := (List.sublist_append_left _ _).trans part
  obtain ⟨current, queue, discarded⟩ := f
  by_cases realtime : isRealtime b = true
  · rw [step, if_pos realtime]
    exact part.trans (List.sublist_append_left _ _)
  by_cases start : b = sysexStart
  · rw [step, if_neg realtime, if_pos start, start]
    exact queued.append (List.Sublist.refl _)
  -- where nothing is held any more, the queue alone is left
  have dropped : (queue.flatten ++ []).Sublist (s ++ [b]) := by
    rw [List.append_nil]
    exact queued.trans (List.sublist_append_left _ _)
  cases current with
  | none =>
    simp only [step, if_neg realtime, if_neg start]
    exact dropped
  | some body =>
    simp only [step, if_neg realtime, if_neg start]
    have longer := part.append (List.Sublist.refl [b])
    split_ifs with ends data
    · simpa [held] using longer
    · simpa [held] using longer
    · exact dropped

theorem push_sublist {f : Framer} {s : Bytes} (part : (f.queue.flatten ++ f.held).Sublist s) (t : Bytes) :
    ((f.push t).queue.flatten ++ (f.push t).held).Sublist (s ++ t) := by
  induction t generalizing f s with
  | nil => rwa [push_nil, List.append_nil]
  | cons b t ih =>
    rw [push_cons, List.append_cons]
    exact ih (step_sublist part b)

theorem messages_flatten_sublist (s : Bytes) : (messages s).flatten.Sublist s :=
  (List.sublist_append_left _ _).trans (@push_sublist {} [] (List.Sublist.refl []) s)

inductive Call
  | use (called : Use)
  | reset

def call (state : List Bytes × Framer) : Call → List Bytes × Framer
  | .use called => use state called
  | .reset => ([], state.2.reset)

def pushedSince (bytes : Bytes) : Call → Bytes
  | .use called => bytes ++ pushed [called]
  | .reset => []

theorem putBack_call {state : List Bytes × Framer} {bytes : Bytes}
    (framed : putBack state.1 state.2 = push {} bytes) (called : Call) :
    putBack (call state called).1 (call state called).2 = push {} (pushedSince bytes called) := by
  cases called with
  | use called => rw [call, putBack_use, framed, pushedSince, push_append]
  | reset => rfl

theorem putBack_calls {state : List Bytes × Framer} {bytes : Bytes}
    (framed : putBack state.1 state.2 = push {} bytes) (calls : List Call) :
    putBack (calls.foldl call state).1 (calls.foldl call state).2 =
      push {} (calls.foldl pushedSince bytes) := by
  induction calls generalizing state bytes with
  | nil => exact framed
  | cons called calls ih => exact ih (putBack_call framed called)

/-- In every state that a new framer can get into, it holds nothing between messages and an opening
in the middle of one, and the bytes pushed since the last reset, real-time bytes apart, are as many
as were discarded, completed in messages popped or still queued, and held. -/
theorem bytes_accounted (calls : List Call) :
    let (popped, f) := calls.foldl call ([], {})
    let bytes := calls.foldl pushedSince []
    (if f.isReceiving then IsOpening f.held else f.held = []) ∧
      bytes.withoutRealtime.length =
        f.discarded + ((popped ++ f.queue).map List.length).sum + f.held.length := by
  have fresh : putBack [] {} = push {} [] := rfl
  have framed := @putBack_calls ([], {}) [] fresh calls
  generalize calls.foldl call ([], {}) = state at framed
  obtain ⟨popped, f⟩ := state
  dsimp only at framed ⊢
  constructor
  · have clean := Clean.fresh.push (calls.foldl pushedSince [])
    rw [← framed] at clean
    cases current : f.current with
    | none => simp [isReceiving, held, current]
    | some body =>
      simp only [isReceiving, held, current, Option.isSome_some, ↓reduceIte]
      exact ⟨body.reverse, rfl, fun b member => clean.held body current b (List.mem_reverse.mp member)⟩
  · have balance := total_push {} (calls.foldl pushedSince [])
    rw [← framed] at balance
    have nothing : total {} = 0 := rfl
    rw [nothing, Nat.zero_add] at balance
    exact balance.symm

end MidiStorage.Framer
