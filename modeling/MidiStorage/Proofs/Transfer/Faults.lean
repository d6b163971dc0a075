import MidiStorage.Proofs.Transfer.Replies

namespace MidiStorage

open MidiStorage.Action

variable {σ τ α β : Type}

def Action.FailsWith (E : Failure → Prop) (a : Action σ α) : Prop :=
  ∀ s e t, a s = .error e t → E e

namespace Action.FailsWith

variable {E : Failure → Prop}

theorem pure (E : Failure → Prop) (x : α) : FailsWith E (pure x : Action σ α) := by
  intro s e t run
  cases run

theorem throw {e : Failure} (failure : E e) : FailsWith E (throw e : Action σ α) := by
  intro s e' t run
  cases run
  exact failure

theorem get (E : Failure → Prop) : FailsWith E (get : Action σ σ) := by
  intro s e t run
  cases run

theorem modify (E : Failure → Prop) (f : σ → σ) : FailsWith E (modify f : Action σ Unit) := by
  intro s e t run
  cases run

theorem modifyGet (E : Failure → Prop) (f : σ → α × σ) :
    FailsWith E (modifyGet f : Action σ α) := by
  intro s e t run
  cases run

theorem bind {a : Action σ α} {f : α → Action σ β} (first : FailsWith E a)
    (rest : ∀ x, FailsWith E (f x)) : FailsWith E (a >>= f) := by
  intro s e t run
  rcases bind_eq_error.mp run with failed | ⟨x, s₁, -, failed⟩
  · exact first s e t failed
  · exact rest x s₁ e t failed

theorem outcome (E : Failure → Prop) (a : Action σ α) : FailsWith E (outcome a) := by
  intro s e t run
  cases result : a s with
  | ok x s₁ =>
    rw [outcome_of_ok result] at run
    cases run
  | error e' s₁ =>
    rw [outcome_of_error result] at run
    cases run

theorem within {view : σ → τ} {update : σ → τ → σ} {a : Action τ α} (inner : FailsWith E a) :
    FailsWith E (within view update a) := by
  intro s e t run
  cases result : a (view s) with
  | ok x part =>
    rw [within_of_ok result] at run
    cases run
  | error e' part =>
    rw [within_of_error result] at run
    cases run
    exact inner _ _ _ result

end Action.FailsWith

/-- The failures of work that may belong to a job and may have a limit to its waiting. -/
inductive Fault (watched : Bool) (limit : Option Nat) : Failure → Prop
  | io (reason : String) : Fault watched limit (.io reason)
  | timedOut {timeout : Nat} (waits : limit = some timeout) : Fault watched limit (.timedOut timeout)
  | cancelled (job : watched = true) : Fault watched limit .cancelled

variable {P : Type}

namespace Link

theorem check_fails (watched : Bool) (limit : Option Nat) :
    FailsWith (Fault watched limit) (check watched : Action (Link P) Unit) := by
  intro l e l' run
  by_cases stopped : Stopped watched l
  · rw [check_of_stopped stopped] at run
    cases run
    exact .cancelled stopped.1
  · rw [check_of_not_stopped stopped] at run
    cases run

theorem now_fails (E : Failure → Prop) : FailsWith E (now : Action (Link P) Nat) := by
  intro l e l' run
  obtain ⟨time, clock, read⟩ := now_ok l
  rw [read] at run
  cases run

theorem sleep_fails (E : Failure → Prop) (duration : Nat) :
    FailsWith E (sleep duration : Action (Link P) Unit) := by
  intro l e l' run
  cases run

variable [Port P] (watched : Bool) (limit : Option Nat)

theorem sendRounds_fails (rounds : Nat) (bytes : Bytes) :
    FailsWith (Fault watched limit) (sendRounds rounds bytes : Action (Link P) Unit) := by
  have stalled : FailsWith (Fault watched limit) (stalled : Action (Link P) Unit) :=
    (FailsWith.get _).bind fun _ => .throw (.io _)
  induction rounds generalizing bytes with
  | zero =>
    cases bytes with
    | nil => exact .pure _ ()
    | cons b rest => exact stalled
  | succ rounds ih =>
    cases bytes with
    | nil => exact .pure _ ()
    | cons b rest =>
      have write : FailsWith (Fault watched limit) (writeOnce (P := P) (b :: rest)) := by
        intro l e l' run
        cases run
      rw [sendRounds]
      refine write.bind ?_
      intro result
      cases result with
      | ok n =>
        cases n with
        | zero => exact stalled
        | succ n => exact ih _
      | error e =>
        dsimp only
        split_ifs with interrupted
        · exact ih _
        · exact .throw (.io _)

theorem send_fails (bytes : Bytes) :
    FailsWith (Fault watched limit) (send bytes : Action (Link P) Nat) :=
  (FailsWith.get _).bind fun _ => (sendRounds_fails _ _ _ _).bind fun _ => .pure _ _

theorem readRounds_fails (rounds : Nat) (got : Bytes) :
    FailsWith (Fault watched limit) (readRounds rounds got : Action (Link P) Bytes) := by
  induction rounds generalizing got with
  | zero => exact .pure _ got
  | succ rounds ih =>
    have read : FailsWith (Fault watched limit) (readOnce (P := P)) := by
      intro l e l' run
      cases run
    rw [Link.readRounds]
    refine read.bind ?_
    intro result
    cases result with
    | ok bytes =>
      cases bytes with
      | nil => exact .pure _ got
      | cons b bytes => exact ih (got ++ b :: bytes)
    | error e =>
      dsimp only
      split_ifs with blocked interrupted
      · exact .pure _ got
      · exact ih got
      · exact .throw (.io _)

theorem pollFramer_fails : FailsWith (Fault watched limit) (pollFramer : Action (Link P) Unit) :=
  ((FailsWith.get _).bind fun _ => readRounds_fails _ _ _ _).bind fun _ => .modify _ _

theorem drain_ok (l : Link P) : drain l = .ok () (final (drain l)) := by
  have rounds_fails (start rounds quietSince : Nat) :
      FailsWith (fun _ => False) (drainRounds (P := P) start rounds quietSince) := by
    induction rounds generalizing quietSince with
    | zero => exact .pure _ ()
    | succ rounds ih =>
      rw [drainRounds]
      refine (FailsWith.get _).bind fun _ => (now_fails _).bind ?_
      intro time
      split_ifs with rested
      · exact .pure _ ()
      · refine (now_fails _).bind ?_
        intro later
        split_ifs with late
        · exact .pure _ ()
        · refine (FailsWith.outcome _ _).bind ?_
          intro result
          cases result with
          | error e => exact .pure _ ()
          | ok bytes =>
            cases bytes with
            | nil => exact (sleep_fails _ _).bind fun _ => ih _
            | cons b bytes => exact (now_fails _).bind fun _ => ih _
  have fails : FailsWith (fun _ => False) (drain : Action (Link P) Unit) :=
    (FailsWith.modify _ _).bind fun _ => (now_fails _).bind fun _ => (now_fails _).bind fun _ =>
      (FailsWith.get _).bind fun _ => rounds_fails _ _ _
  cases run : drain l with
  | ok u l' => rfl
  | error e l' => exact (fails l e l' run).elim

end Link

namespace Exchange

theorem takeMessages_fails (E : Failure → Prop) (batch : Bool) :
    FailsWith E (takeMessages batch : Action (Link P) (List Bytes)) := by
  cases batch with
  | true => exact .modifyGet _ _
  | false => exact (FailsWith.modifyGet _ _).bind fun _ => .pure _ _

variable [Port P]

theorem sendSlices_fails (watched : Bool) (limit : Option Nat) (slices : List Bytes) :
    FailsWith (Fault watched limit) (sendSlices watched slices : Action (Link P) Unit) := by
  induction slices with
  | nil => exact .pure _ ()
  | cons slice rest ih =>
    rw [sendSlices]
    refine (Link.check_fails _ _).bind ?_
    intro _
    exact (Link.send_fails _ _ slice).bind fun _ => ih

theorem collectRounds_fails (t : Transfer) (rounds since : Nat) (got : List Bytes) :
    FailsWith (Fault t.watched (some t.timeout))
      (collectRounds t rounds since got : Action (Link P) Bytes) := by
  have settle_fails (got : List Bytes) : FailsWith (Fault t.watched (some t.timeout))
      (settle t.timeout got : Action (Link P) Bytes) := by
    unfold settle
    split_ifs with nothing
    · exact .throw (.timedOut rfl)
    · exact .pure _ _
  induction rounds generalizing since got with
  | zero => exact settle_fails got
  | succ rounds ih =>
    have goOn_fails (since : Nat) (got : List Bytes) :
        FailsWith (Fault t.watched (some t.timeout)) (goOn (P := P) t rounds since got) := by
      unfold goOn
      refine (FailsWith.get _).bind ?_
      intro l
      refine (Link.now_fails _).bind ?_
      intro time
      dsimp only
      generalize (if got.isEmpty then t.timeout else l.timing.idleTimeout) = wait
      split_ifs with late
      · exact settle_fails got
      · exact (Link.sleep_fails _ _).bind fun _ => ih _ _
    rw [collectRounds_succ]
    refine (Link.check_fails _ _).bind ?_
    intro _
    refine (Link.pollFramer_fails _ _).bind ?_
    intro _
    refine (takeMessages_fails _ _).bind ?_
    intro fresh
    split_ifs with single
    · exact .pure _ _
    · exact goOn_fails _ _
    · exact (Link.now_fails _).bind fun _ => goOn_fails _ _

theorem collect_fails (t : Transfer) :
    FailsWith (Fault t.watched (some t.timeout)) (collect t : Action (Link P) Bytes) :=
  (Link.now_fails _).bind fun _ => (FailsWith.get _).bind fun _ => collectRounds_fails t _ _ _

end Exchange

namespace Link

variable [Port P] {l l' : Link P} {e : Failure}

/-- A failed exchange was broken off while its request was sent, or got no reply to it. -/
theorem exchange_error {t : Transfer} (failed : exchange t l = .error e l') :
    (∃ k < t.raw.length, l'.accepted = l.accepted ++ t.raw.take k) ∧ Fault t.watched none e ∨
      l'.accepted = l.accepted ++ t.raw ∧ Fault t.watched (some t.timeout) e := by
  have answered := exchange_answered t l
  rw [failed] at answered
  cases answered with
  | unsent unknown unsent =>
    left
    have sent := Exchange.sendSlices_message t.watched t.raw l
    rw [unsent] at sent
    obtain ⟨k, inside, accepted⟩ := sent
    exact ⟨⟨k, inside, accepted⟩, Exchange.sendSlices_fails _ _ _ _ _ _ unsent⟩
  | unheard unknown done unheard =>
    right
    have sent := Exchange.sendSlices_message t.watched t.raw l
    rw [done] at sent
    have silent := (Exchange.collect_preserves (accepted_lasting (l.accepted ++ t.raw)) _).of_error
      sent unheard
    have fault := Exchange.collect_fails { t with phase := .receiving } _ _ _ unheard
    exact ⟨silent, fault⟩

theorem exchange_ok {t : Transfer} {reply : Bytes} (unknown : l.remembered t = none)
    (run : exchange t l = .ok reply l') : l'.accepted = l.accepted ++ t.raw := by
  have answered := exchange_answered t l
  rw [run] at answered
  cases answered with
  | remembered known =>
    rw [unknown] at known
    cases known
  | heard _ done heard =>
    have sent := Exchange.sendSlices_message t.watched t.raw l
    rw [done] at sent
    rw [keep_accepted]
    exact (Exchange.collect_preserves (accepted_lasting (l.accepted ++ t.raw)) _).of_ok sent heard

end Link

end MidiStorage
