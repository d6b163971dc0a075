import MidiStorage.Proofs.Framing.Grammar

namespace MidiStorage.Framer

open Bytes

theorem push_data {f : Framer} {held body : Bytes} (current : f.current = some held)
    (data : ∀ b ∈ body, isData b = true) :
    f.push body = { f with current := some (body.reverse ++ held) } := by
  induction body generalizing f held with
  | nil =>
    rw [push_nil, List.reverse_nil, List.nil_append, ← current]
  | cons b body ih =>
    have first : isData b = true := data b (List.mem_cons_self ..)
    have rest : ∀ c ∈ body, isData c = true := fun c member =>
      data c (List.mem_cons_of_mem _ member)
    have step : f.step b = { f with current := some (b :: held) } := by
      unfold Framer.step
      simp only [isRealtime_of_data first, ne_start_of_data first, ne_end_of_data first, first, current,
        Bool.false_eq_true, ↓reduceIte]
    rw [push_cons, step, ih rfl rest, List.reverse_cons, List.append_assoc]
    rfl

theorem push_message (f : Framer) {m : Bytes} (message : m.IsMessage) :
    ∃ discarded, f.push m = { current := none, queue := f.queue ++ [m], discarded } := by
  obtain ⟨opening, ⟨body, rfl, data⟩, rfl⟩ := message
  have start : f.step sysexStart =
      { f with current := some [], discarded := f.discarded + f.held.length } := by
    unfold Framer.step
    have plain : isRealtime sysexStart = false := by decide
    simp only [plain, Bool.false_eq_true, ↓reduceIte]
  have finish : ∀ g : Framer, g.current = some body.reverse → g.step sysexEnd =
      { g with current := none, queue := g.queue ++ [sysexStart :: body ++ [sysexEnd]] } := by
    intro g current
    have plain : isRealtime sysexEnd = false := by decide
    have other : sysexEnd ≠ sysexStart := by decide
    unfold Framer.step held
    simp only [plain, other, current, Bool.false_eq_true, ↓reduceIte, List.reverse_reverse]
  refine ⟨f.discarded + f.held.length, ?_⟩
  rw [push_append, push_cons f, start, push_data rfl data, List.append_nil, push_cons, finish _ rfl,
    push_nil]

theorem push_messages (f : Framer) {ms : List Bytes} (messages : ∀ m ∈ ms, IsMessage m) :
    (f.push ms.flatten).queue = f.queue ++ ms := by
  induction ms generalizing f with
  | nil => rw [List.flatten_nil, push_nil, List.append_nil]
  | cons m ms ih =>
    obtain ⟨discarded, pushed⟩ := f.push_message (messages m (List.mem_cons_self ..))
    rw [List.flatten_cons, push_append, pushed, ih _ fun n member =>
      messages n (List.mem_cons_of_mem _ member), List.append_assoc, List.singleton_append]

/-- Whole messages are queued, and data is held. -/
structure Clean (f : Framer) : Prop where
  queued : ∀ m ∈ f.queue, IsMessage m
  held : ∀ body, f.current = some body → ∀ b ∈ body, isData b = true

theorem Clean.fresh : Clean {} := by
  refine ⟨?_, ?_⟩
  · intro m none
    cases none
  · intro body none
    cases none

theorem Clean.step {f : Framer} (clean : f.Clean) (b : UInt8) : (f.step b).Clean := by
  have emptied : ∀ discarded, Clean { current := none, queue := f.queue, discarded } := by
    intro discarded
    refine ⟨clean.queued, ?_⟩
    intro body none
    cases none
  unfold Framer.step
  by_cases realtime : isRealtime b
  · rw [if_pos realtime]
    exact clean
  rw [if_neg realtime]
  by_cases start : b = sysexStart
  · rw [if_pos start]
    refine ⟨clean.queued, ?_⟩
    intro body fresh c member
    cases fresh
    cases member
  rw [if_neg start]
  cases current : f.current with
  | none => exact emptied (f.discarded + 1)
  | some body =>
    have data := clean.held body current
    dsimp only
    by_cases ends : b = sysexEnd
    · rw [if_pos ends]
      refine ⟨?_, fun body none => by cases none⟩
      intro m member
      rcases List.mem_append.mp member with old | new
      · exact clean.queued m old
      · rw [List.mem_singleton] at new
        subst new ends
        unfold Framer.held
        rw [current]
        exact ⟨_, ⟨body.reverse, rfl, fun c inside => data c (List.mem_reverse.mp inside)⟩, rfl⟩
    rw [if_neg ends]
    by_cases more : isData b = true
    · rw [if_pos more]
      refine ⟨clean.queued, ?_⟩
      intro longer same c member
      cases same
      rcases List.mem_cons.mp member with rfl | inside
      · exact more
      · exact data c inside
    · rw [if_neg more]
      exact emptied _

theorem Clean.push {f : Framer} (clean : f.Clean) (bytes : Bytes) : (f.push bytes).Clean := by
  induction bytes generalizing f with
  | nil => exact clean
  | cons b bytes ih => exact ih (clean.step b)

theorem Clean.pop {f : Framer} (clean : f.Clean) :
    f.pop.2.Clean ∧ ∀ m ∈ f.pop.1, IsMessage m := by
  unfold Framer.pop
  cases queue : f.queue with
  | nil => exact ⟨clean, fun m none => by cases none⟩
  | cons message rest =>
    have queued := clean.queued
    rw [queue] at queued
    refine ⟨⟨fun m member => queued m (List.mem_cons_of_mem _ member), clean.held⟩, ?_⟩
    intro m same
    cases same
    exact queued message (List.mem_cons_self ..)

theorem Clean.popAll {f : Framer} (clean : f.Clean) : f.popAll.2.Clean := by
  refine ⟨?_, clean.held⟩
  intro m none
  cases none

theorem step_apart (f : Framer) (b : UInt8) :
    (f.step b).current = (step { current := f.current } b).current ∧
      (f.step b).queue = f.queue ++ (step { current := f.current } b).queue := by
  obtain ⟨current, queue, discarded⟩ := f
  cases current with
  | none =>
    dsimp only [Framer.step]
    split_ifs <;> simp
  | some body =>
    dsimp only [Framer.step, held]
    split_ifs <;> simp

theorem queue_push (f : Framer) (s : Bytes) :
    (f.push s).queue = f.queue ++ (push { current := f.current } s).queue := by
  induction s generalizing f with
  | nil => rw [push_nil, push_nil, List.append_nil]
  | cons b s ih =>
    obtain ⟨current, queue⟩ := f.step_apart b
    rw [push_cons, push_cons, ih, ih (step { current := f.current } b), current, queue,
      List.append_assoc]

theorem messages_append {m : Bytes} (message : m.IsMessage) (rest : Bytes) :
    messages (m ++ rest) = m :: messages rest := by
  obtain ⟨discarded, pushed⟩ := push_message {} message
  unfold messages
  rw [push_append, queue_push, pushed]
  rfl

theorem messages_eq_singleton_iff {m : Bytes} : messages m = [m] ↔ m.IsMessage := by
  constructor
  · intro single
    apply (Clean.fresh.push m).queued
    change m ∈ messages m
    rw [single]
    exact List.mem_singleton_self m
  · intro message
    have heard := messages_append message []
    rwa [List.append_nil] at heard

theorem push_endless (f : Framer) {s : Bytes} (endless : sysexEnd ∉ s) :
    (f.push s).queue = f.queue := by
  induction s generalizing f with
  | nil => rfl
  | cons b s ih =>
    rw [List.mem_cons, not_or] at endless
    obtain ⟨other, rest⟩ := endless
    have silent : (f.step b).queue = f.queue := by
      unfold Framer.step
      cases f.current with
      | none => split_ifs <;> rfl
      | some body =>
        dsimp only
        rw [if_neg (Ne.symm other)]
        split_ifs <;> rfl
    rw [push_cons, ih _ rest, silent]

theorem push_between {f : Framer} (between : f.current = none) {s : Bytes} (startless : sysexStart ∉ s) :
    (f.push s).current = none ∧ (f.push s).queue = f.queue := by
  induction s generalizing f with
  | nil => exact ⟨between, rfl⟩
  | cons b s ih =>
    rw [List.mem_cons, not_or] at startless
    obtain ⟨other, rest⟩ := startless
    have idle : (f.step b).current = none ∧ (f.step b).queue = f.queue := by
      obtain ⟨current, queue, discarded⟩ := f
      cases between
      dsimp only [Framer.step]
      rw [if_neg (Ne.symm other)]
      split_ifs
      · exact ⟨rfl, rfl⟩
      · exact ⟨rfl, rfl⟩
    rw [push_cons, ← idle.2]
    exact ih idle.1 rest

theorem messages_of_spoiled {front back : Bytes} {b : UInt8} (endless : sysexEnd ∉ front)
    (low : 0x80 ≤ b.toNat) (high : b.toNat < 0xF0) (startless : sysexStart ∉ back) :
    messages (front ++ b :: back) = [] := by
  have realtime : isRealtime b = false := by
    apply decide_eq_false
    rw [UInt8.le_iff_toNat_le]
    exact Nat.not_le.mpr (Nat.lt_trans high (by decide))
  have data : isData b = false := by
    apply decide_eq_false
    rw [UInt8.lt_iff_toNat_lt]
    exact Nat.not_lt.mpr low
  have apart {c : UInt8} (above : 0xF0 ≤ c.toNat) : b ≠ c := by
    rintro rfl
    omega
  have spoiled (f : Framer) : (f.step b).current = none ∧ (f.step b).queue = f.queue := by
    unfold Framer.step
    rw [if_neg (by rw [realtime]; decide), if_neg (apart (by decide))]
    cases f.current with
    | none => simp
    | some body => simp [apart (c := sysexEnd) (by decide), data]
  have before : (push {} front).queue = [] := push_endless {} endless
  obtain ⟨current, queue⟩ := spoiled (push {} front)
  unfold messages
  rw [push_append, push_cons, (push_between current startless).2, queue, before]

end MidiStorage.Framer
