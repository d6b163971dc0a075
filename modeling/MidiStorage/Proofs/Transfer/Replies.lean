import MidiStorage.Proofs.Framing.Whole
import MidiStorage.Proofs.Transfer.Exchanges
import MidiStorage.Proofs.Transfer.Receiving

namespace MidiStorage

open MidiStorage.Action

variable {P : Type}

namespace Link

structure Clean (l : Link P) : Prop where
  framer : l.framer.Clean
  cache : ∀ entry ∈ l.cache.entries, entry.2.IsMessage

theorem framer_lasting [Port P] : Lasting (P := P) (·.framer.Clean) where
  run _ _ clean := clean
  read _ clean := clean
  push _ bytes clean := clean.push bytes
  pop _ clean := clean.pop.1
  popAll _ clean := clean.popAll

theorem Clean.keep {l : Link P} (clean : l.Clean) (t : Transfer) {reply : Bytes}
    (message : reply.IsMessage) : (l.keep t reply).Clean := by
  obtain ⟨cache, kept, entries⟩ := keep_entries l t reply
  rw [kept]
  refine ⟨clean.framer, ?_⟩
  intro entry member
  rcases entries entry member with old | ⟨rfl, -⟩
  · exact clean.cache entry old
  · exact message

section Sending

variable [Port P] {I : Link P → Prop}

theorem sendRounds_preserves (write : ∀ bytes, Preserves I (writeOnce bytes)) (rounds : Nat)
    (bytes : Bytes) : Preserves I (sendRounds rounds bytes) := by
  have stalled : Preserves I (stalled : Action (Link P) Unit) :=
    (Preserves.get _).bind fun _ => Preserves.throw _ _
  induction rounds generalizing bytes with
  | zero =>
    cases bytes with
    | nil => exact Preserves.pure _ ()
    | cons b rest => exact stalled
  | succ rounds ih =>
    cases bytes with
    | nil => exact Preserves.pure _ ()
    | cons b rest =>
      rw [sendRounds]
      refine (write (b :: rest)).bind ?_
      intro result
      cases result with
      | ok n =>
        cases n with
        | zero => exact stalled
        | succ n => exact ih _
      | error e =>
        dsimp only
        split_ifs with interrupted
        · exact ih _
        · exact Preserves.throw _ _

theorem send_preserves (write : ∀ bytes, Preserves I (writeOnce bytes)) (bytes : Bytes) :
    Preserves I (send bytes) :=
  (Preserves.get _).bind fun _ => (sendRounds_preserves write _ _).bind fun _ => Preserves.pure _ _

end Sending

end Link

namespace Exchange

theorem settle_ok {timeout : Nat} {got : List Bytes} {l l' : Link P} {bytes : Bytes}
    (run : settle timeout got l = .ok bytes l') : got ≠ [] ∧ bytes = got.flatten := by
  cases got with
  | nil => cases run
  | cons m ms =>
    cases run
    exact ⟨List.cons_ne_nil m ms, rfl⟩

theorem takeMessages_clean {batch : Bool} {l l' : Link P} {fresh : List Bytes}
    (clean : l.framer.Clean) (run : takeMessages batch l = .ok fresh l') :
    (∀ m ∈ fresh, m.IsMessage) ∧ (batch = false → fresh.length ≤ 1) := by
  cases batch with
  | true =>
    cases run
    exact ⟨clean.queued, fun no => by cases no⟩
  | false =>
    rw [takeMessages_single] at run
    cases run
    refine ⟨?_, fun _ => Option.length_toList_le⟩
    intro m member
    exact clean.pop.2 m (Option.mem_toList.mp member)

variable [Port P]

theorem sendSlices_preserves {I : Link P → Prop}
    (write : ∀ bytes, Preserves I (Link.writeOnce bytes)) (watched : Bool) (slices : List Bytes) :
    Preserves I (sendSlices watched slices) := by
  induction slices with
  | nil => exact Preserves.pure _ ()
  | cons slice rest ih =>
    rw [sendSlices]
    refine (Link.check_preserves _ _).bind ?_
    intro _
    exact (Link.send_preserves write slice).bind fun _ => ih

theorem transmit_preserves {I : Link P → Prop}
    (write : ∀ bytes, Preserves I (Link.writeOnce bytes)) :
    Preserves (I ·.link) (transmit (P := P)) := by
  have enters (phase : Phase) : Preserves (I ·.link) (enter (P := P) phase) :=
    Preserves.modify fun _ before => before
  refine (enters _).bind fun _ => (Preserves.get _).bind fun x => ?_
  have slices := sendSlices_preserves write x.transfer.watched
    (x.transfer.raw.slices Transfer.sliceSize)
  refine (Preserves.within (fun _ _ => rfl) slices.outcome).bind ?_
  intro result
  cases result with
  | ok u => exact enters _
  | error e => exact (enters _).bind fun _ => Preserves.throw _ e

theorem receive_preserves {I : Link P → Prop} (abiding : Link.Abiding I) :
    Preserves (I ·.link) (receive (P := P)) := by
  have enters (phase : Phase) : Preserves (I ·.link) (enter (P := P) phase) :=
    Preserves.modify fun _ before => before
  refine (enters _).bind fun _ => (Preserves.get _).bind fun x => ?_
  refine (Preserves.within (fun _ _ => rfl) (collect_abiding abiding x.transfer).outcome).bind ?_
  intro result
  refine (enters _).bind fun _ => ?_
  cases result with
  | ok bytes => exact Preserves.modify fun _ before => before
  | error e => exact Preserves.throw _ e

inductive Round (t : Transfer) (rounds since : Nat) (l : Link P) :
    EStateM.Result Failure (Link P) Bytes → Prop
  | cancelled : Round t rounds since l (.error .cancelled l)
  | fault {e : Failure} {l₁ : Link P} (polled : Link.pollFramer l = .error e l₁) :
    Round t rounds since l (.error e l₁)
  | heard {m : Bytes} {l₁ : Link P} (polled : Link.pollFramer l = .ok () l₁)
    (message : l₁.framer.pop.1 = some m) :
    Round t rounds since l (.ok m { l₁ with framer := l₁.framer.pop.2 })
  | late {l₁ : Link P} (polled : Link.pollFramer l = .ok () l₁) (run : Run) :
    Round t rounds since l (.error (.timedOut t.timeout) { l₁ with run })
  | again {l₁ : Link P} (polled : Link.pollFramer l = .ok () l₁) (run : Run) :
    Round t rounds since l (collectRounds t rounds since [] { l₁ with run })

theorem round {t : Transfer} (single : t.batch = false) (rounds since : Nat) (l : Link P) :
    Round t rounds since l (collectRounds t (rounds + 1) since [] l) := by
  rw [collectRounds_succ]
  by_cases stopped : Link.Stopped t.watched l
  · rw [bind_of_error (Link.check_of_stopped stopped)]
    exact .cancelled
  rw [bind_of_ok (Link.check_of_not_stopped stopped)]
  cases polled : Link.pollFramer l with
  | error e l₁ =>
    rw [bind_of_error polled]
    exact .fault polled
  | ok u l₁ =>
    rw [bind_of_ok polled, single, bind_of_ok (takeMessages_single l₁)]
    cases message : l₁.framer.pop.1 with
    | some m =>
      have one : [m].flatten = m := List.append_nil m
      simp only [Option.toList_some, Bool.not_false, List.isEmpty_cons, Bool.and_self, ↓reduceIte,
        one]
      exact .heard polled message
    | none =>
      have same : l₁.framer.pop.2 = l₁.framer := by
        unfold Framer.pop at message ⊢
        split at message
        · rfl
        · cases message
      obtain ⟨time, run, read⟩ := Link.now_ok l₁
      simp only [Option.toList_none, List.isEmpty_nil, Bool.not_true, Bool.and_false,
        Bool.false_eq_true, ↓reduceIte, List.append_nil, same]
      unfold goOn
      rw [bind_of_ok (get_apply l₁)]
      simp only [List.isEmpty_nil, ↓reduceIte]
      rw [bind_of_ok read]
      by_cases late : t.timeout ≤ time - since
      · rw [if_pos late]
        exact .late polled run
      · rw [if_neg late]
        exact .again polled _

def Messages (t : Transfer) (bytes : Bytes) : Prop :=
  ∃ ms, ms ≠ [] ∧ (∀ m ∈ ms, Bytes.IsMessage m) ∧ (t.batch = false → ms.length = 1) ∧
    bytes = ms.flatten

theorem collectRounds_messages {t : Transfer} {rounds since : Nat} {got : List Bytes} {l l' : Link P}
    {bytes : Bytes} (clean : l.framer.Clean) (whole : ∀ m ∈ got, m.IsMessage)
    (single : t.batch = false → got = []) (run : collectRounds t rounds since got l = .ok bytes l') :
    Messages t bytes := by
  have settled {got : List Bytes} {l : Link P} (whole : ∀ m ∈ got, m.IsMessage)
      (single : t.batch = false → got = []) (run : settle t.timeout got l = .ok bytes l') :
      Messages t bytes := by
    obtain ⟨some, joined⟩ := settle_ok run
    exact ⟨got, some, whole, fun one => absurd (single one) some, joined⟩
  induction rounds generalizing since got l with
  | zero => exact settled whole single run
  | succ rounds ih =>
    have goesOn {since : Nat} {got : List Bytes} {l : Link P} (clean : l.framer.Clean)
        (whole : ∀ m ∈ got, m.IsMessage) (single : t.batch = false → got = [])
        (run : goOn t rounds since got l = .ok bytes l') : Messages t bytes := by
      unfold goOn at run
      rw [bind_of_ok (get_apply l), bind_eq_ok] at run
      obtain ⟨time, l₁, read, run⟩ := run
      have clean₁ := (Link.framer_lasting.onRun _).of_ok clean read
      generalize (if got.isEmpty then t.timeout else l.timing.idleTimeout) = limit at run
      split_ifs at run with late
      · exact settled whole single run
      · rw [bind_eq_ok] at run
        obtain ⟨_, l₂, slept, run⟩ := run
        exact ih ((Link.framer_lasting.onRun _).of_ok clean₁ slept) whole single run
    rw [collectRounds_succ, bind_eq_ok] at run
    obtain ⟨_, l₁, checked, run⟩ := run
    have clean₁ := (Link.framer_lasting.onRun _).of_ok clean checked
    rw [bind_eq_ok] at run
    obtain ⟨_, l₂, polled, run⟩ := run
    have clean₂ := Link.framer_lasting.pollFramer.of_ok clean₁ polled
    rw [bind_eq_ok] at run
    obtain ⟨fresh, l₃, taken, run⟩ := run
    have clean₃ := (takeMessages_preserves Link.framer_lasting t.batch).of_ok clean₂ taken
    obtain ⟨freshWhole, atMostOne⟩ := takeMessages_clean clean₂ taken
    have bothWhole : ∀ m ∈ got ++ fresh, m.IsMessage := by
      intro m member
      rcases List.mem_append.mp member with old | new
      · exact whole m old
      · exact freshWhole m new
    cases fresh with
    | nil =>
      rw [List.append_nil] at bothWhole run
      simp only [List.isEmpty_nil, Bool.not_true, Bool.and_false, Bool.false_eq_true, ↓reduceIte] at run
      exact goesOn clean₃ whole single run
    | cons m ms =>
      cases batch : t.batch with
      | false =>
        -- the first message ends a wait for a single one
        simp only [batch, Bool.not_false, List.isEmpty_cons, Bool.and_self, ↓reduceIte] at run
        cases run
        have atMost := atMostOne batch
        have one : (m :: ms).length = 1 := by
          rw [List.length_cons] at atMost ⊢
          omega
        exact ⟨m :: ms, List.cons_ne_nil m ms, freshWhole, fun _ => one, rfl⟩
      | true =>
        simp only [batch, Bool.not_true, Bool.false_and, Bool.false_eq_true, ↓reduceIte,
          List.isEmpty_cons] at run
        rw [bind_eq_ok] at run
        obtain ⟨time, l₄, read, run⟩ := run
        have clean₄ := (Link.framer_lasting.onRun _).of_ok clean₃ read
        refine goesOn clean₄ bothWhole ?_ run
        intro no
        rw [batch] at no
        cases no

theorem collect_messages {t : Transfer} {l l' : Link P} {bytes : Bytes} (clean : l.framer.Clean)
    (run : collect t l = .ok bytes l') : Messages t bytes := by
  unfold collect at run
  rw [bind_eq_ok] at run
  obtain ⟨start, l₁, read, run⟩ := run
  have clean₁ := (Link.framer_lasting.onRun _).of_ok clean read
  rw [bind_of_ok (get_apply l₁)] at run
  refine collectRounds_messages clean₁ ?_ (fun _ => rfl) run
  intro m none
  cases none

theorem collect_message {t : Transfer} (single : t.batch = false) {l l' : Link P} {bytes : Bytes}
    (clean : l.framer.Clean) (run : collect t l = .ok bytes l') : bytes.IsMessage := by
  obtain ⟨ms, -, whole, one, joined⟩ := collect_messages clean run
  obtain ⟨m, rfl⟩ := List.length_eq_one_iff.mp (one single)
  rw [joined, List.flatten_singleton]
  exact whole m (List.mem_singleton_self m)

end Exchange

namespace Link

variable [Port P] {I : Link P → Prop}

/-- Neither a wait nor a write nor forgetting the replies breaks the property, where the clock and
the job move only as a wait moves them. -/
structure Steadfast (I : Link P → Prop) : Prop extends Abiding I where
  write (bytes : Bytes) : Preserves I (writeOnce bytes)
  clear (l : Link P) : I l → I { l with cache := l.cache.clear }

namespace Steadfast

variable (steadfast : Steadfast I)

include steadfast

theorem sendSlices (watched : Bool) (slices : List Bytes) :
    Preserves I (Exchange.sendSlices watched slices) :=
  Exchange.sendSlices_preserves steadfast.write watched slices

theorem exchange {t : Transfer} (kept : ∀ l reply, I l → I (l.keep t reply)) :
    Preserves I (exchange t) := by
  intro l before
  have answered := exchange_answered t l
  generalize Link.exchange t l = result at answered ⊢
  cases answered with
  | remembered known => exact before
  | unsent unknown failed => exact (steadfast.sendSlices _ _).of_error before failed
  | unheard unknown sent failed =>
    have sending := (steadfast.sendSlices _ _).of_ok before sent
    exact (Exchange.collect_abiding steadfast.toAbiding _).of_error sending failed
  | heard unknown sent heard =>
    have sending := (steadfast.sendSlices _ _).of_ok before sent
    exact kept _ _ ((Exchange.collect_abiding steadfast.toAbiding _).of_ok sending heard)

theorem exchange_uncached {t : Transfer} (uncached : t.cacheable = false) :
    Preserves I (Link.exchange t) := by
  apply steadfast.exchange
  intro l reply before
  rwa [keep_uncached uncached]

theorem transmitAll (message : Bytes) (watched : Bool) : Preserves I (transmitAll message watched) := by
  intro l before
  have sending := steadfast.sendSlices watched (message.slices Transfer.sliceSize) l before
  cases sent : Exchange.sendSlices watched (message.slices Transfer.sliceSize) l with
  | error e l₁ =>
    rw [sent] at sending
    rw [transmitAll_of_error sent]
    exact steadfast.clear l₁ sending
  | ok u l₁ =>
    rw [sent] at sending
    rw [transmitAll_of_ok sent]
    exact steadfast.clear l₁ sending

end Steadfast

/-- The same, whatever becomes of the clock and the job. -/
structure Enduring (I : Link P → Prop) : Prop extends Lasting I where
  write (bytes : Bytes) : Preserves I (writeOnce bytes)
  clear (l : Link P) : I l → I { l with cache := l.cache.clear }

theorem Enduring.steadfast (enduring : Enduring I) : Steadfast I :=
  { enduring.toLasting.abiding with write := enduring.write, clear := enduring.clear }

theorem Enduring.sendSlices (enduring : Enduring I) (watched : Bool) (slices : List Bytes) :
    Preserves I (Exchange.sendSlices watched slices) := enduring.steadfast.sendSlices watched slices

theorem Enduring.exchange (enduring : Enduring I) {t : Transfer}
    (kept : ∀ l reply, I l → I (l.keep t reply)) : Preserves I (exchange t) :=
  enduring.steadfast.exchange kept

theorem Enduring.transmitAll (enduring : Enduring I) (message : Bytes) (watched : Bool) :
    Preserves I (transmitAll message watched) := enduring.steadfast.transmitAll message watched

/-- What no step of an exchange breaks, and what does not depend on remembered replies, holds after
it. -/
theorem transact_preserves (lasting : Lasting I) (write : ∀ bytes, Preserves I (writeOnce bytes))
    (cached : ∀ l cache, I l → I { l with cache }) (request : Bytes) (timeout : Nat) (watched : Bool) :
    Preserves I (transact request timeout watched) := by
  have enduring : Enduring I := { toLasting := lasting, write, clear := fun l => cached l _ }
  refine enduring.exchange (t := { raw := request, timeout, watched }) ?_
  intro l reply before
  obtain ⟨cache, kept, -⟩ := keep_entries l { raw := request, timeout, watched } reply
  rw [kept]
  exact cached l cache before

theorem clean_enduring : Enduring (P := P) Clean where
  run _ _ clean := ⟨clean.framer, clean.cache⟩
  read _ clean := ⟨clean.framer, clean.cache⟩
  push _ bytes clean := ⟨clean.framer.push bytes, clean.cache⟩
  pop _ clean := ⟨clean.framer.pop.1, clean.cache⟩
  popAll _ clean := ⟨clean.framer.popAll, clean.cache⟩
  write _ _ clean := ⟨clean.framer, clean.cache⟩
  clear _ clean := ⟨clean.framer, fun _ none => by cases none⟩

theorem transact_message {request : Bytes} {timeout : Nat} {watched : Bool} {l l' : Link P}
    {reply : Bytes} (clean : l.Clean) (run : transact request timeout watched l = .ok reply l') :
    reply.IsMessage ∧ l'.Clean := by
  let t : Transfer := { raw := request, timeout, watched }
  have answered : Answered t l (transact request timeout watched l) := exchange_answered t l
  rw [run] at answered
  cases answered with
  | remembered known => exact ⟨clean.cache _ (mem_of_remembered known), clean⟩
  | heard unknown sent heard =>
    have clean₁ := (clean_enduring.sendSlices _ _).of_ok clean sent
    have clean₂ := (Exchange.collect_preserves clean_enduring.toLasting _).of_ok clean₁ heard
    have message := Exchange.collect_message rfl clean₁.framer heard
    exact ⟨message, clean₂.keep t message⟩

end Link

end MidiStorage
