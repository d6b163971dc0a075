import MidiStorage.Port.Scripted
import MidiStorage.Proofs.Transfer.Gathering

namespace MidiStorage

open MidiStorage.Action

variable {P : Type}

namespace Link

variable [Port P] [LawfulPort P] {l₀ l l' : Link P}

inductive Returns (l₀ : Link P) : EStateM.Result Failure (Link P) Bytes → Prop
  | bytes {bytes : Bytes} {l : Link P} (delivered : l.delivered = l₀.delivered ++ bytes)
    (framer : l.framer = l₀.framer) : Returns l₀ (.ok bytes l)
  | nothing {e : Failure} {l : Link P} (delivered : l.delivered = l₀.delivered)
    (framer : l.framer = l₀.framer) (sound : ∀ reason, e ≠ .io reason) : Returns l₀ (.error e l)
  | broke {reason : String} {l₁ l : Link P} (delivered : l₁.delivered = l₀.delivered)
    (framer : l₁.framer = l₀.framer) (failed : poll l₁ = .error (.io reason) l) :
    Returns l₀ (.error (.io reason) l)

theorem receiveRounds_returns (timeout : Nat) (watched : Bool) (start rounds : Nat)
    (delivered : l.delivered = l₀.delivered) (framer : l.framer = l₀.framer) :
    Returns l₀ (receiveRounds timeout watched start rounds l) := by
  induction rounds generalizing l with
  | zero => exact .nothing delivered framer (by simp)
  | succ rounds ih =>
    rw [receiveRounds]
    by_cases stopped : l.Stopped watched
    · rw [bind_of_error (check_of_stopped stopped)]
      exact .nothing delivered framer (by simp)
    rw [bind_of_ok (check_of_not_stopped stopped)]
    cases polled : poll l with
    | error e l₁ =>
      obtain ⟨⟨reason, rfl⟩, -⟩ := poll_error polled
      rw [bind_of_error polled]
      exact .broke delivered framer polled
    | ok bytes l₁ =>
      obtain ⟨more, same⟩ := poll_ok polled
      rw [delivered] at more
      rw [framer] at same
      rw [bind_of_ok polled]
      cases bytes with
      | cons b bytes => exact .bytes more same
      | nil =>
        rw [List.append_nil] at more
        obtain ⟨time, run, read⟩ := now_ok l₁
        simp only [List.isEmpty_nil, Bool.not_true, Bool.false_eq_true, ↓reduceIte]
        rw [bind_of_ok read]
        split_ifs with late
        · exact .nothing (l := { l₁ with run }) more same (by simp)
        · exact ih (l := _) more same

end Link

namespace Link

/-- What was delivered between two links went to the framer, was returned as it was, or was lost, in
this order, and these messages were taken from the framer. -/
structure Account (l : Link P) (framed : Bytes) (taken : List Bytes) (returned lost : Bytes)
    (l' : Link P) : Prop where
  delivered : l'.delivered = l.delivered ++ framed ++ returned ++ lost
  framer : Framer.putBack taken l'.framer = l.framer.push framed

inductive Hearing
  | messages (t : Transfer)
  | reply (t : Transfer)
  | raw (timeout : Nat) (watched : Bool)

/-- What a call gives for the input that it used. A reply from memory uses none, and a single
message that does not come is not taken. -/
def Hearing.Gives (l : Link P) (framed : Bytes) (taken : List Bytes) (returned : Bytes) :
    Hearing → Except Failure Bytes → Prop
  | messages _, .ok bytes => returned = [] ∧ bytes = taken.flatten
  | reply t, .ok bytes => returned = [] ∧
      (bytes = taken.flatten ∨ l.remembered t = some bytes ∧ framed = [] ∧ taken = [])
  | messages t, .error _ | reply t, .error _ => returned = [] ∧ (t.batch = false → taken = [])
  | raw _ _, .ok bytes => framed = [] ∧ taken = [] ∧ returned = bytes
  | raw _ _, .error _ => framed = [] ∧ taken = [] ∧ returned = []

variable {l l' : Link P} {call : Hearing} {t : Transfer} {e : Failure}

theorem Account.start (l : Link P) : Account l [] [] [] [] l := by
  refine ⟨?_, rfl⟩
  simp only [List.append_nil]

theorem Gathered.account {taken : List Bytes} (gathered : Gathered l taken l') :
    ∃ framed, Account l framed taken [] [] l' := by
  obtain ⟨framed, delivered, framer⟩ := gathered
  exact ⟨framed, by rw [delivered, List.append_nil, List.append_nil], framer⟩

variable [Port P]

def Hearing.action : Hearing → Action (Link P) Bytes
  | messages t => withTransfer t Exchange.receive
  | reply t => exchange t
  | raw timeout watched => receive timeout watched

inductive Hearing.Spends (call : Hearing) (l : Link P) : EStateM.Result Failure (Link P) Bytes → Prop
  | kept {framed returned : Bytes} {taken : List Bytes} {result : EStateM.Result Failure (Link P) Bytes}
    (account : Account l framed taken returned [] (final result))
    (gives : call.Gives l framed taken returned (answer result))
    (sound : ∀ reason, answer result = .error (.io reason) →
      ∃ t, call = reply t ∧ (final result).accepted ≠ l.accepted ++ t.raw) : Spends call l result
  /-- A poll fails, and all that it read is lost. -/
  | broke {framed lost : Bytes} {taken : List Bytes} {reason : String} {l₁ l' : Link P}
    (account : Account l framed taken [] lost l') (before : l₁.delivered = l.delivered ++ framed)
    (failed : poll l₁ = .error (.io reason) l')
    (gives : call.Gives l framed taken [] (.error (.io reason))) : Spends call l (.error (.io reason) l')

theorem hear_eq (t : Transfer) (l : Link P) :
    withTransfer t Exchange.receive l = Exchange.collect { t with phase := .receiving } l := by
  cases heard : Exchange.collect { t with phase := .receiving } l with
  | ok bytes l' => exact withTransfer_of_ok (Exchange.receive_of_ok heard)
  | error e l' => exact withTransfer_of_error (Exchange.receive_of_error heard)

variable [LawfulPort P]

theorem spends_of_ends (ends : Exchange.Ends t l (.error e l'))
    (gives : ∀ framed taken, (t.batch = false → taken = []) → call.Gives l framed taken [] (.error e)) :
    call.Spends l (.error e l') := by
  cases ends with
  | gaveUp single gathered sound =>
    obtain ⟨framed, account⟩ := gathered.account
    refine .kept account (gives _ _ single) ?_
    intro reason failed
    exact absurd (Except.error.inj failed) (sound reason)
  | @broke taken reason l₁ _ single gathered failed =>
    obtain ⟨-, ⟨lost, delivered⟩, framer⟩ := poll_error failed
    obtain ⟨framed, before, put⟩ := gathered
    rw [← framer] at put
    have account : Account l framed taken [] lost l' :=
      ⟨by rw [delivered, before, List.append_nil], put⟩
    exact .broke account before failed (gives framed taken single)

theorem messages_spends (t : Transfer) (l : Link P) :
    (Hearing.messages t).Spends l (withTransfer t Exchange.receive l) := by
  have ends := Exchange.collect_ends (t := { t with phase := .receiving }) (Gathered.start l l.run)
  rw [hear_eq]
  generalize Exchange.collect { t with phase := .receiving } l = result at ends ⊢
  cases result with
  | error e l' => exact spends_of_ends ends fun _ _ single => ⟨rfl, single⟩
  | ok bytes l' =>
    cases ends with
    | handed gathered all =>
      obtain ⟨framed, account⟩ := gathered.account
      exact .kept account ⟨rfl, rfl⟩ (fun _ failed => by cases failed)

theorem reply_spends (t : Transfer) (l : Link P) : (Hearing.reply t).Spends l (exchange t l) := by
  have before := Gathered.start l l.run
  have sending := Exchange.sendSlices_preserves (Gathered.writing l []) t.watched
    (t.raw.slices Transfer.sliceSize)
  have answered := exchange_answered t l
  generalize run : exchange t l = result at answered
  cases answered with
  | remembered known =>
    exact .kept (.start l) ⟨rfl, Or.inr ⟨known, rfl, rfl⟩⟩ (fun _ failed => by cases failed)
  | @unsent e l₁ unknown failed =>
    obtain ⟨framed, account⟩ := (sending.of_error before failed).account
    refine .kept account ⟨rfl, fun _ => rfl⟩ ?_
    intro reason _
    have sent := Exchange.sendSlices_message t.watched t.raw l
    rw [failed] at sent
    obtain ⟨k, inside, accepted⟩ := sent
    refine ⟨t, rfl, ?_⟩
    change l₁.accepted ≠ _
    rw [accepted, Ne, List.append_cancel_left_eq]
    intro whole
    have length := congrArg List.length whole
    rw [List.length_take] at length
    omega
  | unheard unknown sent failed =>
    have ends := Exchange.collect_ends (t := { t with phase := .receiving }) (sending.of_ok before sent)
    rw [failed] at ends
    exact spends_of_ends ends fun _ _ single => ⟨rfl, single⟩
  | @heard reply l₁ l₂ unknown sent heard =>
    have ends := Exchange.collect_ends (t := { t with phase := .receiving }) (sending.of_ok before sent)
    rw [heard] at ends
    cases ends with
    | @handed taken _ gathered all =>
      obtain ⟨cache, kept, -⟩ := keep_entries l₂ t taken.flatten
      obtain ⟨framed, account⟩ := gathered.account
      have same : Account l framed taken [] [] { l₂ with cache } := ⟨account.delivered, account.framer⟩
      rw [kept]
      exact .kept same ⟨rfl, Or.inl rfl⟩ (fun _ failed => by cases failed)

theorem raw_spends (timeout : Nat) (watched : Bool) (l : Link P) :
    (Hearing.raw timeout watched).Spends l (receive timeout watched l) := by
  obtain ⟨start, run, read⟩ := now_ok l
  unfold receive
  rw [bind_of_ok read, bind_of_ok (get_apply _)]
  have returns : Returns l (receiveRounds timeout watched start (run.clock.rounds timeout) { l with run }) :=
    receiveRounds_returns timeout watched start (run.clock.rounds timeout) rfl rfl
  generalize receiveRounds timeout watched start (run.clock.rounds timeout) { l with run } = result
    at returns ⊢
  cases returns with
  | @bytes bytes l' delivered framer =>
    have account : Account l [] [] bytes [] l' := ⟨by rw [delivered, List.append_nil, List.append_nil], framer⟩
    exact .kept account ⟨rfl, rfl, rfl⟩ (fun _ failed => by cases failed)
  | @nothing e l' delivered framer sound =>
    have account : Account l [] [] [] [] l' := ⟨by simp only [delivered, List.append_nil], framer⟩
    refine .kept account ⟨rfl, rfl, rfl⟩ ?_
    intro reason failed
    exact absurd (Except.error.inj failed) (sound reason)
  | @broke reason l₁ l' delivered framer failed =>
    obtain ⟨-, ⟨lost, later⟩, same⟩ := poll_error failed
    have account : Account l [] [] [] lost l' :=
      ⟨by rw [later, delivered, List.append_nil, List.append_nil], same.trans framer⟩
    exact .broke account (by rw [delivered, List.append_nil]) failed ⟨rfl, rfl, rfl⟩

/-- Whatever the port does, a call accounts for each byte of its input once: it goes to the framer,
or is returned raw, unless a poll fails after it read some. The call then fails as this poll did,
and all that the poll read is lost; in no other way is anything lost, and no other fault is met but
in sending. -/
theorem hearing_spends (call : Hearing) (l : Link P) : call.Spends l (call.action l) := by
  cases call with
  | messages t => exact messages_spends t l
  | reply t => exact reply_spends t l
  | raw timeout watched => exact raw_spends timeout watched l

def breakingLink : Link ScriptedPort :=
  ofPort "scripted:0" { name := "scripted", reads := [
    .bytes [0xF0, 1, 0xF7], .fault ⟨.brokenPipe, "gone"⟩] } Timing.standard

/-- Whoever listens, the message is lost: nobody returns it, and the next receive finds nothing. -/
theorem breakingLink_loses :
    let next : Hearing := .messages { raw := [], timeout := 100 }
    ∀ call ∈ [next, .reply { raw := [0xF0, 9, 0xF7], timeout := 100 }, .raw 100 false],
      let l := final (call.action breakingLink)
      call.Spends breakingLink (call.action breakingLink) ∧
      answer (call.action breakingLink) = .error (.io "gone") ∧ l.delivered = [0xF0, 1, 0xF7] ∧
      l.framer = breakingLink.framer ∧ answer (next.action l) = .error (.timedOut 100) := by
  intro next call member l
  refine ⟨hearing_spends call breakingLink, ?_⟩
  simp only [List.mem_cons, List.not_mem_nil, or_false] at member
  rcases member with rfl | rfl | rfl
  · decide +kernel
  · decide +kernel
  · decide +kernel

end Link

end MidiStorage
