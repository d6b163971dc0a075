import MidiStorage.Port.Scripted
import MidiStorage.Proofs.Transfer.Exchanges
import MidiStorage.Proofs.Transfer.Faults

namespace MidiStorage

open MidiStorage.Action

namespace Bytes

theorem length_of_mem_slicesWithin {size rounds : Nat} {bytes : Bytes} {front back : List Bytes}
    (split : slicesWithin size rounds bytes = front ++ back) (more : back ≠ []) :
    ∀ slice ∈ front, slice.length = size := by
  induction front generalizing rounds bytes with
  | nil =>
    intro slice none
    cases none
  | cons first front ih =>
    cases rounds with
    | zero => cases split
    | succ rounds =>
      cases bytes with
      | nil => cases split
      | cons b rest =>
        rw [slicesWithin, List.cons_append, List.cons.injEq] at split
        · obtain ⟨whole, later⟩ := split
          have left : (b :: rest).drop size ≠ [] := by
            intro empty
            rw [empty] at later
            cases rounds <;> exact more (List.append_eq_nil_iff.mp later.symm).2
          have long : size < (b :: rest).length := by
            rw [Ne, List.drop_eq_nil_iff] at left
            omega
          rw [List.forall_mem_cons]
          refine ⟨?_, ih later⟩
          rw [← whole, List.length_take]
          omega
        · exact List.cons_ne_nil b rest

theorem length_flatten_of_length {size : Nat} {slices : List Bytes}
    (full : ∀ slice ∈ slices, slice.length = size) :
    slices.flatten.length = slices.length * size := by
  rw [List.length_flatten, List.map_congr_left full, List.map_const', List.sum_replicate_nat]

end Bytes

variable {P : Type} [Port P]

namespace Exchange

theorem sendSlices_cancelled {watched : Bool} {slices : List Bytes} {l l' : Link P}
    (cancelled : sendSlices watched slices l = .error .cancelled l') :
    ∃ front back, slices = front ++ back ∧ back ≠ [] ∧ sendSlices watched front l = .ok () l' := by
  induction slices generalizing l with
  | nil => cases cancelled
  | cons slice rest ih =>
    by_cases stopped : l.Stopped watched
    · rw [sendSlices, bind_of_error (Link.check_of_stopped stopped)] at cancelled
      cases cancelled
      exact ⟨[], slice :: rest, rfl, List.cons_ne_nil slice rest, rfl⟩
    · rw [sendSlices, bind_of_ok (Link.check_of_not_stopped stopped), bind_eq_error] at cancelled
      rcases cancelled with failed | ⟨n, l₁, sent, later⟩
      · -- within a slice nobody looks for cancellation
        cases Link.send_fails false none slice _ _ _ failed with
        | cancelled job => cases job
      · obtain ⟨front, back, rfl, more, done⟩ := ih later
        refine ⟨slice :: front, back, rfl, more, ?_⟩
        rw [sendSlices, bind_of_ok (Link.check_of_not_stopped stopped), bind_of_ok sent]
        exact done

theorem sendSlices_cancelled_at {watched : Bool} {bytes : Bytes} {l l' : Link P}
    (cancelled : sendSlices watched (bytes.slices Transfer.sliceSize) l = .error .cancelled l') :
    ∃ n < bytes.length, Transfer.sliceSize ∣ n ∧ l'.accepted = l.accepted ++ bytes.take n := by
  have positive : 0 < Transfer.sliceSize := by decide
  obtain ⟨front, back, split, more, sent⟩ := sendSlices_cancelled cancelled
  have full : [] ∉ front ++ back := by
    rw [← split]
    exact Bytes.slicesWithin_ne_nil positive _ bytes
  have whole : front.flatten ++ back.flatten = bytes := by
    rw [← List.flatten_append, ← split]
    exact Bytes.slices_flatten positive bytes
  have accepted := sendSlices_sent watched front (fun empty => full (List.mem_append_left _ empty)) l
  rw [sent] at accepted
  refine ⟨front.flatten.length, ?_, ?_, ?_⟩
  · obtain ⟨slice, rest, rfl⟩ := List.exists_cons_of_ne_nil more
    have some : slice ≠ [] := by
      rintro rfl
      exact full (List.mem_append_right _ (List.mem_cons_self ..))
    have positive := List.length_pos_iff.mpr some
    rw [← whole, List.length_append, List.flatten_cons, List.length_append]
    omega
  · rw [Bytes.length_flatten_of_length (Bytes.length_of_mem_slicesWithin split more)]
    exact Nat.dvd_mul_left _ _
  · rw [← whole, List.take_left]
    exact accepted

/-- The port accepts the bytes of a transfer from their front, in order and each once. A send ends
well when it accepted them all. One that is cancelled breaks off between two slices, and one with a
fault anywhere before the end; the transfer keeps its bytes. -/
theorem transmit_accepts_front (l : Link P) (t : Transfer) :
    match transmit ⟨l, t⟩ with
    | .ok () x => x.link.accepted = l.accepted ++ t.raw ∧ x.transfer = { t with phase := .waiting }
    | .error e x =>
      (∃ n < t.raw.length, x.link.accepted = l.accepted ++ t.raw.take n ∧
        (e = .cancelled ∧ Transfer.sliceSize ∣ n ∨ ∃ reason, e = .io reason)) ∧
      x.transfer = { t with phase := .finished } := by
  have sends := sendSlices_message t.watched t.raw l
  cases sent : sendSlices t.watched (t.raw.slices Transfer.sliceSize) l with
  | ok _ l' =>
    rw [sent] at sends
    rw [transmit_of_ok sent]
    exact ⟨sends, rfl⟩
  | error e l' =>
    rw [sent] at sends
    rw [transmit_of_error sent]
    refine ⟨?_, rfl⟩
    cases sendSlices_fails t.watched none _ _ _ _ sent with
    | io reason =>
      obtain ⟨n, inside, accepted⟩ := sends
      exact ⟨n, inside, accepted, .inr ⟨reason, rfl⟩⟩
    | timedOut waits => cases waits
    | cancelled job =>
      obtain ⟨n, inside, slices, accepted⟩ := sendSlices_cancelled_at sent
      exact ⟨n, inside, accepted, .inl ⟨rfl, slices⟩⟩

/-- The first slice is taken in three writes, of which one is interrupted and the last cancels the
job. -/
example :
    let port : ScriptedPort :=
      { name := "scripted", writes := [.accept 500, .fault ⟨.interrupted, "again"⟩, .cancel] }
    let t : Transfer := { raw := List.replicate 600 5, timeout := 0, watched := true }
    let result := transmit ⟨Link.ofPort "scripted:0" port Timing.standard, t⟩
    answer result = .error .cancelled ∧
      (final result).link.accepted = List.replicate Transfer.sliceSize 5 := by
  decide +kernel

end Exchange

end MidiStorage
