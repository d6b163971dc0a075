import Mathlib.Data.List.Induction
import Mathlib.Tactic.Common
import MidiStorage.Framer

namespace MidiStorage

namespace Bytes

def withoutRealtime (s : Bytes) : Bytes := s.filter fun b => !isRealtime b

def IsOpening (m : Bytes) : Prop :=
  ∃ body, m = sysexStart :: body ∧ ∀ b ∈ body, isData b = true

def IsMessage (m : Bytes) : Prop := ∃ opening, IsOpening opening ∧ m = opening ++ [sysexEnd]

/-- The messages within a stream, each with the position of its start, in the order of these. -/
structure Blocks (s : Bytes) (blocks : List (Nat × Bytes)) : Prop where
  ascending : blocks.Pairwise (·.1 < ·.1)
  mem_iff (i : Nat) (m : Bytes) : (i, m) ∈ blocks ↔ IsMessage m ∧ m <+: s.drop i

theorem sysexEnd_not_data : isData sysexEnd = false := by decide

theorem sysexStart_not_data : isData sysexStart = false := by decide

theorem isRealtime_of_data {b : UInt8} (data : isData b = true) : isRealtime b = false := by
  simp only [isData, isRealtime, decide_eq_true_eq, decide_eq_false_iff_not] at data ⊢
  grind

theorem ne_start_of_data {b : UInt8} (data : isData b = true) : b ≠ sysexStart := by
  rintro rfl
  cases data

theorem ne_end_of_data {b : UInt8} (data : isData b = true) : b ≠ sysexEnd := by
  rintro rfl
  cases data

theorem IsOpening.end_not_mem {m : Bytes} (opening : IsOpening m) : sysexEnd ∉ m := by
  obtain ⟨body, rfl, data⟩ := opening
  intro member
  rcases List.mem_cons.mp member with same | member
  · exact absurd same (by decide)
  · exact absurd (data _ member) (by decide)

theorem isMessage_of_data {body : Bytes} (data : ∀ b ∈ body, isData b = true) :
    IsMessage (sysexStart :: body ++ [sysexEnd]) :=
  ⟨sysexStart :: body, ⟨body, rfl, data⟩, rfl⟩

theorem IsMessage.end_mem {m : Bytes} (message : IsMessage m) : sysexEnd ∈ m := by
  obtain ⟨opening, -, rfl⟩ := message
  simp

theorem IsMessage.exists_cons {m : Bytes} (message : IsMessage m) : ∃ b rest, m = b :: rest := by
  obtain ⟨opening, ⟨body, rfl, -⟩, rfl⟩ := message
  exact ⟨sysexStart, body ++ [sysexEnd], rfl⟩

theorem IsMessage.inside {first last : UInt8} {inner : Bytes}
    (message : IsMessage (first :: (inner ++ [last]))) :
    last = sysexEnd ∧ ∀ b ∈ inner, isData b = true := by
  obtain ⟨opening, ⟨body, rfl, data⟩, whole⟩ := message
  rw [List.cons_append, List.cons.injEq] at whole
  obtain ⟨rfl, ends⟩ := List.append_inj' whole.2 rfl
  exact ⟨List.head_eq_of_cons_eq ends, data⟩

theorem not_isMessage_nil : ¬ IsMessage [] := by
  intro message
  obtain ⟨b, rest, split⟩ := message.exists_cons
  cases split

theorem opening_suffix_concat (s body : Bytes) (b : UInt8) :
    (sysexStart :: body.reverse <:+ s ++ [b] ∧ ∀ c ∈ body, isData c = true) ↔
      (b = sysexStart ∧ body = []) ∨
      (isData b = true ∧ ∃ rest, body = b :: rest ∧ sysexStart :: rest.reverse <:+ s ∧
        ∀ c ∈ rest, isData c = true) := by
  rw [List.suffix_concat_iff]
  constructor
  · rintro ⟨suffix, data⟩
    rcases suffix with empty | ⟨t, split, suffix⟩
    · cases empty
    cases body with
    | nil =>
      left
      cases t with
      | nil => exact ⟨by simpa using split.symm, rfl⟩
      | cons c t => simp at split
    | cons c rest =>
      right
      have parts : sysexStart :: rest.reverse = t ∧ c = b := by
        rw [List.reverse_cons, ← List.cons_append] at split
        exact List.append_inj' split rfl |>.imp id (by simp)
      obtain ⟨rfl, rfl⟩ := parts
      exact ⟨data c (by simp), rest, rfl, suffix, fun d member => data d (by simp [member])⟩
  · rintro (⟨rfl, rfl⟩ | ⟨dataB, rest, rfl, suffix, data⟩)
    · exact ⟨Or.inr ⟨[], by simp, by simp⟩, by simp⟩
    · refine ⟨Or.inr ⟨sysexStart :: rest.reverse, by simp, suffix⟩, ?_⟩
      intro c member
      rcases List.mem_cons.mp member with rfl | member
      · exact dataB
      · exact data c member

/-- One more byte completes at most the message that began where the rest of the stream is an
opening. -/
theorem message_prefix_concat (s m : Bytes) (b : UInt8) (i : Nat) :
    (IsMessage m ∧ m <+: (s ++ [b]).drop i) ↔
      (IsMessage m ∧ m <+: s.drop i) ∨
      (b = sysexEnd ∧ IsOpening (s.drop i) ∧ m = s.drop i ++ [b]) := by
  by_cases inside : i ≤ s.length
  · rw [List.drop_append_of_le_length inside, List.prefix_concat_iff]
    constructor
    · rintro ⟨message, whole | part⟩
      · right
        obtain ⟨opening, shape, rfl⟩ := message
        obtain ⟨rfl, ends⟩ := List.append_inj' whole rfl
        have same : sysexEnd = b := by simpa using ends
        exact ⟨same.symm, shape, whole⟩
      · exact Or.inl ⟨message, part⟩
    · rintro (⟨message, part⟩ | ⟨rfl, shape, rfl⟩)
      · exact ⟨message, Or.inr part⟩
      · exact ⟨⟨_, shape, rfl⟩, Or.inl rfl⟩
  · have before : (s ++ [b]).drop i = [] := List.drop_of_length_le (by simp; omega)
    have after : s.drop i = [] := List.drop_of_length_le (by omega)
    rw [before, after]
    constructor
    · exact Or.inl
    · rintro (found | ⟨-, ⟨body, h, -⟩, -⟩)
      · exact found
      · cases h

theorem Blocks.lt_of_opening {s : Bytes} {blocks : List (Nat × Bytes)} (found : Blocks s blocks)
    {i : Nat} (opening : IsOpening (s.drop i)) {block : Nat × Bytes} (member : block ∈ blocks) :
    block.1 < i := by
  obtain ⟨message, part⟩ := (found.mem_iff block.1 block.2).mp member
  by_contra later
  have within : s.drop block.1 = (s.drop i).drop (block.1 - i) := by
    rw [List.drop_drop]
    congr 1
    omega
  have ends : sysexEnd ∈ s.drop i := by
    apply List.mem_of_mem_drop (i := block.1 - i)
    rw [← within]
    exact part.subset message.end_mem
  exact opening.end_not_mem ends

theorem Blocks.nil : Blocks [] [] where
  ascending := List.Pairwise.nil
  mem_iff i m := by
    constructor
    · intro member
      cases member
    · rintro ⟨message, part⟩
      rw [List.drop_nil, List.prefix_nil] at part
      subst part
      exact absurd message not_isMessage_nil

theorem Blocks.concat {s : Bytes} {blocks : List (Nat × Bytes)} (found : Blocks s blocks)
    {b : UInt8} (apart : ∀ i, ¬ (b = sysexEnd ∧ IsOpening (s.drop i))) : Blocks (s ++ [b]) blocks where
  ascending := found.ascending
  mem_iff i m := by
    rw [message_prefix_concat, found.mem_iff]
    constructor
    · exact Or.inl
    · rintro (old | ⟨ends, shape, -⟩)
      · exact old
      · exact absurd ⟨ends, shape⟩ (apart i)

theorem Blocks.concat_end {s : Bytes} {blocks : List (Nat × Bytes)} (found : Blocks s blocks)
    {i : Nat} (opening : IsOpening (s.drop i))
    (alone : ∀ j, IsOpening (s.drop j) → j = i) :
    Blocks (s ++ [sysexEnd]) (blocks ++ [(i, s.drop i ++ [sysexEnd])]) where
  ascending := by
    rw [List.pairwise_append]
    refine ⟨found.ascending, List.pairwise_singleton .., ?_⟩
    intro block member last isLast
    rw [List.mem_singleton] at isLast
    subst isLast
    exact found.lt_of_opening opening member
  mem_iff j m := by
    rw [message_prefix_concat, List.mem_append, found.mem_iff, List.mem_singleton, Prod.mk.injEq]
    constructor
    · rintro (old | ⟨rfl, rfl⟩)
      · exact Or.inl old
      · exact Or.inr ⟨rfl, opening, rfl⟩
    · rintro (old | ⟨-, shape, rfl⟩)
      · exact Or.inl old
      · have same := alone j shape
        subst same
        exact Or.inr ⟨rfl, rfl⟩

end Bytes

namespace Framer

open Bytes

/-- A framer as it is after reading `s`, in which there are no real-time bytes. -/
structure Reads (f : Framer) (s : Bytes) : Prop where
  current_iff (body : Bytes) :
    f.current = some body ↔
      sysexStart :: body.reverse <:+ s ∧ ∀ b ∈ body, isData b = true
  queue : ∃ blocks, Blocks s blocks ∧ f.queue = blocks.map Prod.snd

theorem Reads.current_of_opening {f : Framer} {s : Bytes} (reads : f.Reads s) {i : Nat}
    (opening : IsOpening (s.drop i)) :
    ∃ body, f.current = some body ∧ s.drop i = sysexStart :: body.reverse := by
  obtain ⟨body, shape, data⟩ := opening
  refine ⟨body.reverse, (reads.current_iff _).mpr ⟨?_, ?_⟩, by simpa using shape⟩
  · rw [List.reverse_reverse, ← shape]
    exact List.drop_suffix i s
  · intro b member
    exact data b (List.mem_reverse.mp member)

theorem Reads.opening_of_current {f : Framer} {s body : Bytes} (reads : f.Reads s)
    (current : f.current = some body) :
    ∃ i, IsOpening (s.drop i) ∧ s.drop i = sysexStart :: body.reverse ∧
      ∀ j, IsOpening (s.drop j) → j = i := by
  obtain ⟨⟨before, split⟩, data⟩ := (reads.current_iff body).mp current
  have tail : s.drop before.length = sysexStart :: body.reverse := by
    rw [← split, List.drop_left]
  refine ⟨before.length, ⟨body.reverse, tail, fun b member => data b (by simpa using member)⟩,
    tail, ?_⟩
  intro j opening
  obtain ⟨other, same, otherTail⟩ := reads.current_of_opening opening
  rw [current] at same
  cases same
  -- both tails are the start and the held bytes, so they have one length and one position
  have sizes := congrArg List.length otherTail
  have total := congrArg List.length split
  simp only [List.length_drop, List.length_append, List.length_cons] at sizes total
  omega

theorem Reads.fresh : Reads {} [] where
  current_iff body := by simp
  queue := ⟨[], Blocks.nil, rfl⟩

theorem Reads.queue_concat {f : Framer} {s : Bytes} (reads : f.Reads s) {b : UInt8}
    (other : b ≠ sysexEnd) :
    ∃ blocks, Blocks (s ++ [b]) blocks ∧ f.queue = blocks.map Prod.snd := by
  obtain ⟨blocks, found, queue⟩ := reads.queue
  exact ⟨blocks, found.concat fun i h => other h.1, queue⟩

theorem Reads.step_start {f : Framer} {s : Bytes} (reads : f.Reads s) :
    (f.step sysexStart).Reads (s ++ [sysexStart]) where
  current_iff body := by
    rw [opening_suffix_concat]
    simp only [step, show isRealtime sysexStart = false by decide, sysexStart_not_data,
      Bool.false_eq_true, ↓reduceIte, Option.some.injEq, true_and, false_and, or_false]
    exact eq_comm
  queue := by
    have queue := reads.queue_concat (b := sysexStart) (by decide)
    simpa [step, show isRealtime sysexStart = false by decide] using queue

theorem Reads.step_end {f : Framer} {s : Bytes} (reads : f.Reads s) :
    (f.step sysexEnd).Reads (s ++ [sysexEnd]) := by
  obtain ⟨blocks, found, queue⟩ := reads.queue
  have ends (body : Bytes) : ¬ (sysexStart :: body.reverse <:+ s ++ [sysexEnd] ∧
      ∀ b ∈ body, isData b = true) := by
    rw [opening_suffix_concat]
    simp [sysexEnd_not_data, show sysexEnd ≠ sysexStart by decide]
  cases current : f.current with
  | none =>
    have apart (i : Nat) : ¬ (sysexEnd = sysexEnd ∧ IsOpening (s.drop i)) := by
      rintro ⟨-, opening⟩
      obtain ⟨body, some, -⟩ := reads.current_of_opening opening
      rw [current] at some
      cases some
    constructor
    · intro body
      simp [step, current, show isRealtime sysexEnd = false by decide,
        show sysexEnd ≠ sysexStart by decide, ends]
    · refine ⟨blocks, found.concat apart, ?_⟩
      simpa [step, current, show isRealtime sysexEnd = false by decide,
        show sysexEnd ≠ sysexStart by decide] using queue
  | some body =>
    obtain ⟨i, opening, tail, alone⟩ := reads.opening_of_current current
    constructor
    · intro body
      simp [step, current, show isRealtime sysexEnd = false by decide,
        show sysexEnd ≠ sysexStart by decide, ends]
    · refine ⟨_, found.concat_end opening alone, ?_⟩
      simp [step, current, held, queue, tail, show isRealtime sysexEnd = false by decide,
        show sysexEnd ≠ sysexStart by decide]

theorem Reads.step_data {f : Framer} {s : Bytes} (reads : f.Reads s) {b : UInt8}
    (data : isData b = true) : (f.step b).Reads (s ++ [b]) := by
  have realtime := isRealtime_of_data data
  have start := ne_start_of_data data
  have other := ne_end_of_data data
  constructor
  · intro body
    rw [opening_suffix_concat]
    cases current : f.current with
    | none =>
      have none (rest : Bytes) := reads.current_iff rest
      simp only [current, reduceCtorEq, false_iff] at none
      simp only [step, realtime, start, current, Bool.false_eq_true, ↓reduceIte, reduceCtorEq,
        false_and, false_or, false_iff]
      rintro ⟨-, rest, -, opening⟩
      exact none rest opening
    | some held =>
      have some (rest : Bytes) := reads.current_iff rest
      simp only [current, Option.some.injEq] at some
      simp only [step, realtime, start, other, data, current, Bool.false_eq_true, ↓reduceIte,
        Option.some.injEq, false_and, false_or, true_and, ← some]
      exact ⟨fun same => ⟨held, same.symm, rfl⟩, fun ⟨_, same, rest⟩ => by rw [same, rest]⟩
  · have queue := reads.queue_concat other
    cases current : f.current <;>
      simpa [step, realtime, start, other, data, current] using queue

theorem Reads.step_abort {f : Framer} {s : Bytes} (reads : f.Reads s) {b : UInt8}
    (realtime : isRealtime b = false) (start : b ≠ sysexStart) (other : b ≠ sysexEnd)
    (data : isData b = false) : (f.step b).Reads (s ++ [b]) := by
  constructor
  · intro body
    rw [opening_suffix_concat]
    cases current : f.current <;> simp [step, realtime, start, other, data, current]
  · have queue := reads.queue_concat other
    cases current : f.current <;>
      simpa [step, realtime, start, other, data, current] using queue

theorem Reads.step {f : Framer} {s : Bytes} (reads : f.Reads s) {b : UInt8}
    (realtime : isRealtime b = false) : (f.step b).Reads (s ++ [b]) := by
  by_cases start : b = sysexStart
  · subst start
    exact reads.step_start
  by_cases ends : b = sysexEnd
  · subst ends
    exact reads.step_end
  cases data : isData b with
  | true => exact reads.step_data data
  | false => exact reads.step_abort realtime start ends data

theorem reads_push (s : Bytes) (real : ∀ b ∈ s, isRealtime b = false) : Reads (push {} s) s := by
  induction s using List.reverseRecOn with
  | nil => exact Reads.fresh
  | append_singleton s b ih =>
    rw [push_append]
    apply Reads.step
    · exact ih fun c member => real c (by simp [member])
    · exact real b (by simp)

theorem push_withoutRealtime (f : Framer) (s : Bytes) : f.push s.withoutRealtime = f.push s := by
  induction s generalizing f with
  | nil => rfl
  | cons b s ih =>
    cases real : isRealtime b with
    | true =>
      have skipped : f.step b = f := by simp [Framer.step, real]
      rw [push_cons, skipped, ← ih]
      simp [withoutRealtime, real]
    | false =>
      rw [push_cons, ← ih]
      simp [withoutRealtime, real]

theorem reads_withoutRealtime (s : Bytes) : Reads (push {} s) s.withoutRealtime := by
  rw [← push_withoutRealtime]
  apply reads_push
  intro b member
  simpa [withoutRealtime] using (List.mem_filter.mp member).2

/-- A framer that is new or reset finds exactly the messages of a stream, and is within one exactly
when the stream ends in an opening. -/
theorem push_finds_blocks (f : Framer) (s : Bytes) :
    f.reset.push s = push {} s ∧
      (∃ blocks, Blocks s.withoutRealtime blocks ∧ (push {} s).queue = blocks.map Prod.snd) ∧
      ((push {} s).isReceiving = true ↔
        ∃ tail, tail <:+ s.withoutRealtime ∧ IsOpening tail) := by
  have reads := reads_withoutRealtime s
  refine ⟨rfl, reads.queue, ?_⟩
  rw [isReceiving, Option.isSome_iff_exists]
  constructor
  · rintro ⟨body, current⟩
    obtain ⟨i, opening, -⟩ := reads.opening_of_current current
    exact ⟨_, List.drop_suffix i _, opening⟩
  · rintro ⟨tail, suffix, opening⟩
    obtain ⟨before, split⟩ := suffix
    have atTail : s.withoutRealtime.drop before.length = tail := by
      rw [← split, List.drop_left]
    rw [← atTail] at opening
    obtain ⟨body, current, -⟩ := reads.current_of_opening opening
    exact ⟨body, current⟩

end Framer

end MidiStorage
