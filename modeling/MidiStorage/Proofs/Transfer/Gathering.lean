import MidiStorage.Proofs.Transfer.Faults
import MidiStorage.Proofs.Transfer.Polling

namespace MidiStorage

open MidiStorage.Action

variable {P : Type}

namespace Link

/-- With the messages got since put back, the framer has taken in just what the port delivered
since. -/
def Gathered (l₀ : Link P) (got : List Bytes) (l : Link P) : Prop :=
  ∃ input, l.delivered = l₀.delivered ++ input ∧
    Framer.putBack got l.framer = l₀.framer.push input

variable {l₀ l l' : Link P} {got : List Bytes}

theorem Gathered.start (l : Link P) (run : Run) : Gathered l [] { l with run } :=
  ⟨[], (List.append_nil _).symm, rfl⟩

theorem Gathered.withRun (gathered : Gathered l₀ got l) (run : Run) :
    Gathered l₀ got { l with run } :=
  gathered

theorem Gathered.take (gathered : Gathered l₀ got l) {batch : Bool} {fresh : List Bytes}
    (taken : Exchange.takeMessages batch l = .ok fresh l') : Gathered l₀ (got ++ fresh) l' := by
  obtain ⟨input, delivered, framed⟩ := gathered
  cases batch with
  | true =>
    cases taken
    exact ⟨input, delivered, (Framer.putBack_popAll got l.framer).trans framed⟩
  | false =>
    rw [Exchange.takeMessages_single] at taken
    cases taken
    exact ⟨input, delivered, (Framer.putBack_pop got l.framer).trans framed⟩

theorem Gathered.all (gathered : Gathered l₀ got l) (nothing : l.framer.queue = []) :
    ∃ input, l.delivered = l₀.delivered ++ input ∧ got = (l₀.framer.push input).queue := by
  obtain ⟨input, delivered, framed⟩ := gathered
  refine ⟨input, delivered, ?_⟩
  rw [← framed, Framer.putBack, nothing, List.append_nil]

variable [Port P]

theorem Gathered.pollFramer [LawfulPort P] (gathered : Gathered l₀ got l)
    (polled : pollFramer l = .ok () l') : Gathered l₀ got l' := by
  obtain ⟨input, delivered, framed⟩ := gathered
  obtain ⟨more, later, pushed⟩ := pollFramer_delivers polled
  refine ⟨input ++ more, ?_, ?_⟩
  · rw [later, delivered, List.append_assoc]
  · rw [pushed, ← Framer.putBack_push, framed, Framer.push_append]

theorem Gathered.writing (l₀ : Link P) (got : List Bytes) (bytes : Bytes) :
    Preserves (Gathered l₀ got) (writeOnce bytes) := by
  rintro l ⟨input, delivered, framed⟩
  exact ⟨input, (writeOnce_delivered bytes l).trans delivered, framed⟩

end Link

namespace Exchange

variable {t : Transfer} {l₀ l l' : Link P} {since : Nat} {got : List Bytes}

/-- The account of a wait that began on `l₀`. With the messages that it took put back, the framer
has taken in all that was delivered, or all but what a failing poll brought. -/
inductive Ends [Port P] (t : Transfer) (l₀ : Link P) : EStateM.Result Failure (Link P) Bytes → Prop
  | handed {taken : List Bytes} {l : Link P} (gathered : l₀.Gathered taken l)
    (all : t.batch = true → l.framer.queue = [] ∧ taken ≠ []) : Ends t l₀ (.ok taken.flatten l)
  | gaveUp {taken : List Bytes} {e : Failure} {l : Link P} (single : t.batch = false → taken = [])
    (gathered : l₀.Gathered taken l) (sound : ∀ reason, e ≠ .io reason) : Ends t l₀ (.error e l)
  | broke {taken : List Bytes} {reason : String} {l₁ l : Link P} (single : t.batch = false → taken = [])
    (gathered : l₀.Gathered taken l₁) (failed : Link.poll l₁ = .error (.io reason) l) :
    Ends t l₀ (.error (.io reason) l)

def Turns [Port P] (t : Transfer) (l₀ : Link P) : EStateM.Result Failure (Link P) Verdict → Prop
  | .ok (.done bytes) l => Ends t l₀ (.ok bytes l)
  | .ok (.again _ got) l => l₀.Gathered got l ∧ (t.batch = false → got = [])
  | .error e l => Ends t l₀ (.error e l)

variable [Port P]

theorem deadline_turns (gathered : l₀.Gathered got l) (nothing : l.framer.queue = [])
    (single : t.batch = false → got = []) : Turns t l₀ (deadline t since got l) := by
  obtain ⟨time, run, read⟩ := Link.now_ok l
  have gathered₁ := gathered.withRun run
  unfold deadline
  rw [bind_of_ok (get_apply l), bind_of_ok read]
  generalize (if got.isEmpty then t.timeout else l.timing.idleTimeout) = limit
  split_ifs with late
  · cases got with
    | nil => exact .gaveUp single gathered₁ (by simp)
    | cons m ms => exact .handed gathered₁ fun _ => ⟨nothing, List.cons_ne_nil m ms⟩
  · exact ⟨gathered₁.withRun _, single⟩

variable [LawfulPort P]

theorem oneRound_turns (since : Nat) (gathered : l₀.Gathered got l) (single : t.batch = false → got = []) :
    Turns t l₀ (oneRound t since got l) := by
  by_cases stopped : l.Stopped t.watched
  · rw [oneRound_of_stopped stopped]
    exact .gaveUp single gathered (by simp)
  rw [oneRound_of_going stopped]
  unfold attempt
  cases polled : Link.pollFramer l with
  | error e l₁ =>
    rw [bind_of_error polled]
    obtain ⟨⟨reason, rfl⟩, -⟩ := Link.pollFramer_faulty polled
    exact .broke single gathered (Link.poll_of_pollFramer_error polled)
  | ok u l₁ =>
    have gathered₁ := gathered.pollFramer polled
    rw [bind_of_ok polled]
    cases taken : takeMessages t.batch l₁ with
    | error e l₂ => exact (takeMessages_fails (fun _ => False) _ _ _ _ taken).elim
    | ok fresh l₂ =>
      have gathered₂ := gathered₁.take taken
      rw [bind_of_ok taken]
      by_cases only : (!t.batch && !fresh.isEmpty) = true
      · rw [if_pos only]
        -- a single message is all that the wait has taken
        simp only [Bool.and_eq_true, Bool.not_eq_eq_eq_not, Bool.not_true] at only
        rw [single only.1, List.nil_append] at gathered₂
        exact .handed gathered₂ fun batch => by simp [only.1] at batch
      · obtain ⟨-, -, -, nothing, -⟩ := takeMessages_input taken only
        rw [if_neg only]
        have single₂ : t.batch = false → got ++ fresh = [] := by
          intro one
          have none : fresh = [] := by simpa [one] using only
          rw [single one, none, List.append_nil]
        split_ifs with none
        · exact deadline_turns gathered₂ nothing single₂
        · obtain ⟨time, run, read⟩ := Link.now_ok l₂
          rw [bind_of_ok read]
          exact deadline_turns (gathered₂.withRun run) nothing single₂

theorem Waits.ends {result : EStateM.Result Failure (Link P) Bytes} (waits : Waits t since got l result)
    (gathered : l₀.Gathered got l) (single : t.batch = false → got = []) : Ends t l₀ result := by
  induction waits with
  | @failed since _ _ _ _ ended =>
    have turns := oneRound_turns since gathered single
    rwa [ended] at turns
  | @done since _ _ _ _ ended =>
    have turns := oneRound_turns since gathered single
    rwa [ended] at turns
  | @again since _ _ _ _ _ _ more rest ih =>
    have turns := oneRound_turns since gathered single
    rw [more] at turns
    exact ih turns.1 turns.2

theorem collect_ends (gathered : l₀.Gathered [] l) : Ends t l₀ (collect t l) := by
  obtain ⟨start, l₁, read, waits⟩ := collect_waits t l
  obtain ⟨r, -, rfl⟩ := Link.onRun_eq_ok read
  exact waits.ends (gathered.withRun r) fun _ => rfl

theorem collect_gathers (batch : t.batch = true) {bytes : Bytes} (heard : collect t l = .ok bytes l') :
    ∃ got, l.Gathered got l' ∧ l'.framer.queue = [] ∧ got ≠ [] ∧ bytes = got.flatten := by
  have ends := collect_ends (t := t) (Link.Gathered.start l l.run)
  rw [heard] at ends
  cases ends with
  | handed gathered all => exact ⟨_, gathered, (all batch).1, (all batch).2, rfl⟩

end Exchange

end MidiStorage
