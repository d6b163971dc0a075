import MidiStorage.Proofs.Transfer.Lossless
import MidiStorage.Proofs.Transfer.Waiting

namespace MidiStorage

open MidiStorage.Action

variable {P : Type} [Port P]

namespace Link

/-- What a poll that has got these bytes so far comes to, read by read. -/
inductive Polls : Bytes → Link P → EStateM.Result Failure (Link P) Bytes → Prop
  | quiet {got : Bytes} {l l₁ : Link P} (read : readOnce l = .ok (.ok []) l₁) : Polls got l (.ok got l₁)
  | blocked {got : Bytes} {e : PortError} {l l₁ : Link P} (read : readOnce l = .ok (.error e) l₁)
    (later : e.kind = .wouldBlock) : Polls got l (.ok got l₁)
  | more {got bytes : Bytes} {b : UInt8} {l l₁ : Link P}
    {result : EStateM.Result Failure (Link P) Bytes} (read : readOnce l = .ok (.ok (b :: bytes)) l₁)
    (rest : Polls (got ++ b :: bytes) l₁ result) : Polls got l result
  | interrupted {got : Bytes} {e : PortError} {l l₁ : Link P}
    {result : EStateM.Result Failure (Link P) Bytes} (read : readOnce l = .ok (.error e) l₁)
    (again : e.kind = .interrupted) (rest : Polls got l₁ result) : Polls got l result
  | fault {got : Bytes} {e : PortError} {l l₁ : Link P} (read : readOnce l = .ok (.error e) l₁)
    (fatal : e.kind ≠ .wouldBlock ∧ e.kind ≠ .interrupted) : Polls got l (.error (.io e.text) l₁)

theorem readRounds_polls [LawfulPort P] {rounds : Nat} {l : Link P}
    (enough : Port.readsLeft l.port < rounds) (got : Bytes) :
    Polls got l (readRounds rounds got l) := by
  induction rounds generalizing got l with
  | zero => omega
  | succ rounds ih =>
    obtain ⟨l₁, read, -, -, -, -, goesOn⟩ := readOnce_input l
    rw [readRounds, bind_of_ok read]
    cases result : (Port.read l.port).result with
    | ok bytes =>
      rw [result] at read goesOn
      cases bytes with
      | nil => exact .quiet read
      | cons b bytes =>
        have fewer := goesOn rfl
        exact .more read (ih (by omega) _)
    | error e =>
      rw [result] at read goesOn
      dsimp only
      split_ifs with later again
      · exact .blocked read later
      · have fewer := goesOn (decide_eq_true again)
        exact .interrupted read again (ih (by omega) _)
      · exact .fault read ⟨later, again⟩

theorem poll_polls [LawfulPort P] (l : Link P) : Polls [] l (poll l) := by
  unfold poll
  rw [bind_of_ok (get_apply l)]
  exact readRounds_polls (Nat.lt_succ_self _) []

theorem readOnce_delivers {l l₁ : Link P} {result : Except PortError Bytes}
    (read : readOnce l = .ok result l₁) :
    l₁.delivered = l.delivered ++ brought result ∧ l₁.framer = l.framer := by
  have delivered := readOnce_delivered l
  rw [read] at delivered
  cases read
  exact ⟨delivered, rfl⟩

/-- A poll does not touch the framer. If it does not fail, what it gets is what the port delivers.
If it fails, nobody gets what the port delivered. -/
theorem Polls.delivers {got : Bytes} {l : Link P} {result : EStateM.Result Failure (Link P) Bytes}
    (polls : Polls got l result) :
    match result with
    | .ok bytes l' =>
      (∃ input, bytes = got ++ input ∧ l'.delivered = l.delivered ++ input) ∧ l'.framer = l.framer
    | .error e l' =>
      (∃ reason, e = .io reason) ∧ (∃ lost, l'.delivered = l.delivered ++ lost) ∧
        l'.framer = l.framer := by
  induction polls with
  | quiet read =>
    obtain ⟨delivered, framer⟩ := readOnce_delivers read
    exact ⟨⟨[], (List.append_nil _).symm, delivered⟩, framer⟩
  | blocked read later =>
    obtain ⟨delivered, framer⟩ := readOnce_delivers read
    exact ⟨⟨[], (List.append_nil _).symm, delivered⟩, framer⟩
  | @more got bytes b l l₁ result read rest ih =>
    obtain ⟨delivered, framer⟩ := readOnce_delivers read
    cases result with
    | ok all l' =>
      obtain ⟨⟨input, joined, later⟩, framer'⟩ := ih
      refine ⟨⟨b :: bytes ++ input, ?_, ?_⟩, framer'.trans framer⟩
      · rw [joined, List.append_assoc]
      · rw [later, delivered, brought, List.append_assoc]
    | error e l' =>
      obtain ⟨reason, ⟨lost, later⟩, framer'⟩ := ih
      refine ⟨reason, ⟨b :: bytes ++ lost, ?_⟩, framer'.trans framer⟩
      rw [later, delivered, brought, List.append_assoc]
  | @interrupted got e l l₁ result read again rest ih =>
    obtain ⟨delivered, framer⟩ := readOnce_delivers read
    rw [brought, List.append_nil] at delivered
    cases result with
    | ok all l' =>
      obtain ⟨⟨input, joined, later⟩, framer'⟩ := ih
      exact ⟨⟨input, joined, by rw [later, delivered]⟩, framer'.trans framer⟩
    | error e' l' =>
      obtain ⟨reason, ⟨lost, later⟩, framer'⟩ := ih
      exact ⟨reason, ⟨lost, by rw [later, delivered]⟩, framer'.trans framer⟩
  | fault read fatal =>
    obtain ⟨delivered, framer⟩ := readOnce_delivers read
    exact ⟨⟨_, rfl⟩, ⟨[], delivered⟩, framer⟩

variable {l l' : Link P}

theorem poll_of_pollFramer_error {e : Failure} (failed : pollFramer l = .error e l') :
    poll l = .error e l' := by
  unfold pollFramer at failed
  rw [bind_eq_error] at failed
  rcases failed with failed | ⟨bytes, l₁, -, pushed⟩
  · exact failed
  · cases pushed

variable [LawfulPort P]

theorem poll_ok {bytes : Bytes} (polled : poll l = .ok bytes l') :
    l'.delivered = l.delivered ++ bytes ∧ l'.framer = l.framer := by
  have polls := poll_polls l
  rw [polled] at polls
  obtain ⟨⟨input, joined, delivered⟩, framer⟩ := polls.delivers
  rw [List.nil_append] at joined
  rw [joined]
  exact ⟨delivered, framer⟩

theorem poll_error {e : Failure} (failed : poll l = .error e l') :
    (∃ reason, e = .io reason) ∧ (∃ lost, l'.delivered = l.delivered ++ lost) ∧ l'.framer = l.framer := by
  have polls := poll_polls l
  rw [failed] at polls
  exact polls.delivers

theorem pollFramer_delivers (polled : pollFramer l = .ok () l') :
    ∃ input, l'.delivered = l.delivered ++ input ∧ l'.framer = l.framer.push input := by
  unfold pollFramer at polled
  rw [bind_eq_ok] at polled
  obtain ⟨bytes, l₁, read, pushed⟩ := polled
  obtain ⟨delivered, framer⟩ := poll_ok read
  cases pushed
  exact ⟨bytes, delivered, congrArg (·.push bytes) framer⟩

theorem pollFramer_faulty {e : Failure} (failed : pollFramer l = .error e l') :
    (∃ reason, e = .io reason) ∧ l'.framer = l.framer := by
  obtain ⟨reason, -, framer⟩ := poll_error (poll_of_pollFramer_error failed)
  exact ⟨reason, framer⟩

theorem pollFramer_queue_nil (polled : pollFramer l = .ok () l') (nothing : l'.framer.queue = []) :
    l.framer.queue = [] := by
  obtain ⟨input, -, pushed⟩ := pollFramer_delivers polled
  rw [pushed, Framer.queue_push, List.append_eq_nil_iff] at nothing
  exact nothing.1

end Link

end MidiStorage
