import MidiStorage.Port.Virtual
import MidiStorage.Proofs.Cache.Deeds

namespace MidiStorage

open MidiStorage.Action

namespace Bytes

theorem IsMessage.count_end {m : Bytes} (message : m.IsMessage) : m.count sysexEnd = 1 := by
  obtain ⟨opening, opens, rfl⟩ := message
  rw [List.count_append, List.count_eq_zero_of_not_mem opens.end_not_mem, List.count_singleton_self]

theorem count_end_flatten {ms : List Bytes} (whole : ∀ m ∈ ms, m.IsMessage) :
    ms.flatten.count sysexEnd = ms.length := by
  induction ms with
  | nil => rfl
  | cons m ms ih =>
    have first := (whole m (List.mem_cons_self ..)).count_end
    have rest := ih fun other member => whole other (List.mem_cons_of_mem _ member)
    rw [List.flatten_cons, List.count_append, first, rest, List.length_cons, Nat.add_comm]

theorem not_isMessage_of_several {ms : List Bytes} (whole : ∀ m ∈ ms, m.IsMessage)
    (several : 2 ≤ ms.length) : ¬ IsMessage ms.flatten := by
  intro message
  have one := message.count_end
  rw [count_end_flatten whole] at one
  omega

end Bytes

variable {P : Type} [Port P]

theorem Exchange.Messages.several {t : Transfer} {bytes : Bytes} (messages : Messages t bytes)
    (other : ¬ bytes.IsMessage) : t.batch = true ∧
      ∃ ms : List Bytes, 2 ≤ ms.length ∧ (∀ m ∈ ms, m.IsMessage) ∧ bytes = ms.flatten := by
  obtain ⟨ms, some, whole, one, rfl⟩ := messages
  have notOne : ms.length ≠ 1 := by
    intro single
    obtain ⟨m, rfl⟩ := List.length_eq_one_iff.mp single
    rw [List.flatten_singleton] at other
    exact other (whole m (List.mem_singleton_self m))
  have positive := List.length_pos_iff.mpr some
  refine ⟨?_, ms, by omega, whole, rfl⟩
  cases batch : t.batch with
  | true => rfl
  | false => exact absurd (one batch) notOne

namespace Link

theorem exchange_messages {l : Link P} (clean : l.framer.Clean) {t : Transfer} {reply : Bytes}
    (unknown : l.remembered t = none) (answered : answer (exchange t l) = .ok reply) :
    Exchange.Messages t reply := by
  have comes := exchange_answered t l
  generalize exchange t l = result at comes answered
  cases comes with
  | remembered known =>
    rw [known] at unknown
    cases unknown
  | unsent unknown failed => cases answered
  | unheard unknown sent failed => cases answered
  | heard unknown sent heard =>
    cases answered
    have sending := Exchange.sendSlices_preserves (I := fun l : Link P => l.framer.Clean)
      (fun _ _ clean => clean) t.watched (t.raw.slices Transfer.sliceSize)
    have messages := Exchange.collect_messages (sending.of_ok clean sent) heard
    exact messages

theorem framer_durable : Durable (P := P) (·.framer.Clean) where
  toLasting := framer_lasting
  write _ _ clean := clean
  clear _ clean := clean
  enable _ clean := clean
  disable _ clean := clean
  reset _ _ := Framer.Clean.fresh
  journal _ _ clean := clean

end Link

namespace Device

theorem deeds_clean {d : Device P} (clean : d.link.framer.Clean) (visits : List (Run × Deed)) :
    (visits.foldl did d).link.framer.Clean := by
  refine deeds_preserve Link.framer_durable ?_ clean visits
  intro t l reply
  rw [Link.keep_framer]
  exact id

theorem Heard.messages {d : Device P} (clean : d.link.framer.Clean) {visits : List (Run × Deed)}
    {t : Transfer} {reply : Bytes} (heard : d.Heard visits t reply) : Exchange.Messages t reply := by
  obtain ⟨before, run, after, rfl, unknown, answered⟩ := heard
  exact Link.exchange_messages (l := ((before.foldl did d).withRun run).link) (deeds_clean clean before)
    unknown answered

/-- The reply was collected as a batch of several messages, when the same request was asked
before. -/
def Batched (d : Device P) (visits : List (Run × Deed)) (t : Transfer) (reply : Bytes) : Prop :=
  ∃ asked : Transfer, asked.batch = true ∧ asked.cacheable = true ∧ asked.raw = t.raw ∧
    d.Heard visits asked reply ∧
    ∃ ms : List Bytes, 2 ≤ ms.length ∧ (∀ m ∈ ms, m.IsMessage) ∧ reply = ms.flatten

/-- After any history of a port, an exchange that waits for a single message comes to something else
exactly if it is answered from the memory of a batch. -/
theorem single_reply_iff (id : String) (port : P) (timing : Timing) (d : Device P)
    (opened : d.link = Link.ofPort id port timing) (visits : List (Run × Deed)) (run : Run) (t : Transfer)
    (single : t.batch = false) (reply : Bytes) :
    let l := ((visits.foldl did d).withRun run).link
    answer (Link.exchange t l) = .ok reply →
      (¬ reply.IsMessage ↔ l.remembered t = some reply ∧ d.Batched visits t reply) := by
  intro l answered
  have clean : d.link.framer.Clean := by
    rw [opened]
    exact Framer.Clean.fresh
  constructor
  · intro other
    cases known : l.remembered t with
    | none =>
      obtain ⟨batch, -⟩ :=
        (Link.exchange_messages (l := l) (deeds_clean clean visits) known answered).several other
      rw [single] at batch
      cases batch
    | some kept =>
      rw [Link.exchange_of_remembered known] at answered
      cases answered
      refine ⟨rfl, ?_⟩
      rcases remembers d visits _ (Link.mem_of_remembered known) with old | heard
      -- a port is opened without any memory
      · rw [opened] at old
        cases old
      · obtain ⟨asked, cacheable, request, heard⟩ := heard
        obtain ⟨batch, several⟩ := (heard.messages clean).several other
        exact ⟨asked, batch, cacheable, request, heard, several⟩
  · rintro ⟨-, asked, -, -, -, -, ms, several, whole, rfl⟩
    exact Bytes.not_isMessage_of_several whole several

theorem batched_reply :
    let port : VirtualPort :=
      { name := "virtual", respond := fun _ _ => { parts := [[0xF0, 1, 0xF7], [0xF0, 2, 0xF7]] } }
    let d : Device VirtualPort := { link := .ofPort "virtual:0" port Timing.standard }
    let t : Transfer := { raw := [0xF0, 16, 0xF7], timeout := 100 }
    let visits : List (Run × Deed) :=
      [({}, .link .enable), ({}, .link (.exchange { t with batch := true }))]
    let l := ((visits.foldl did d).withRun {}).link
    let reply : Bytes := [0xF0, 1, 0xF7, 0xF0, 2, 0xF7]
    t.batch = false ∧ answer (Link.exchange t l) = .ok reply ∧ ¬ reply.IsMessage ∧
      l.remembered t = some reply ∧ d.Batched visits t reply := by
  intro port d t visits l reply
  have answered : answer (Link.exchange t l) = .ok reply := by decide +kernel
  have several : ¬ reply.IsMessage := by
    intro message
    have one := message.count_end
    revert one
    decide
  exact ⟨rfl, answered, several,
    (single_reply_iff "virtual:0" port Timing.standard d rfl visits {} t rfl reply answered).mp several⟩

end Device

end MidiStorage
