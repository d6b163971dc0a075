import Mathlib.Logic.Relation
import MidiStorage.Port.Scripted
import MidiStorage.Proofs.Transfer.Polling

namespace MidiStorage

open MidiStorage.Action Relation

variable {P : Type}

namespace Clock

theorem now_le {r r' : Run} {time : Nat} (read : Run.now r = .ok time r') :
    r.clock.time ≤ r'.clock.time := by
  unfold Run.now at read
  cases script : r.clock.script with
  | nil =>
    simp only [script] at read
    cases read
    exact Nat.le_refl _
  | cons tick rest =>
    simp only [script] at read
    cases read
    exact Nat.div_le_div_right (Nat.le_add_right _ _)

theorem sleep_le (c : Clock) (duration : Nat) : c.time ≤ (c.sleep duration).time := by
  unfold sleep
  split
  · exact Nat.div_le_div_right (Nat.le_add_right _ _)
  · exact Nat.le_refl _

end Clock

namespace Link

theorem now_clock {l l' : Link P} {time : Nat} (read : now l = .ok time l') :
    time = l'.run.clock.time ∧ l.run.clock.time ≤ time ∧ l'.framer = l.framer := by
  obtain ⟨r, inner, rfl⟩ := onRun_eq_ok read
  have shown := (Clock.now_time inner).1
  refine ⟨shown, ?_, rfl⟩
  rw [shown]
  exact Clock.now_le inner

end Link

namespace Exchange

variable {t : Transfer} {start : Nat} {l l' : Link P}
  {result : EStateM.Result Failure (Link P) Bytes}

def stored (t : Transfer) :
    EStateM.Result Failure (Link P) Bytes → EStateM.Result Failure (Exchange P) Unit
  | .ok bytes l => .ok () ⟨l, { t with raw := bytes, phase := .finished }⟩
  | .error e l => .error e ⟨l, { t with phase := .finished }⟩

theorem stored_eq_error {e : Failure} {x : Exchange P} (failed : stored t result = .error e x) :
    result = .error e x.link ∧ x.transfer = { t with phase := .finished } := by
  cases result with
  | ok bytes l' => cases failed
  | error e' l' =>
    cases failed
    exact ⟨rfl, rfl⟩

theorem deadline_of_late {time : Nat} (read : Link.now l = .ok time l')
    (late : t.timeout ≤ time - start) :
    deadline t start [] l = .error (.timedOut t.timeout) l' := by
  unfold deadline
  rw [bind_of_ok (get_apply l)]
  simp only [List.isEmpty_nil, ↓reduceIte]
  rw [bind_of_ok read, if_pos late]
  rfl

theorem deadline_of_early {time : Nat} {l₁ : Link P} (read : Link.now l = .ok time l')
    (early : time - start < t.timeout)
    (slept : Link.sleep (min l.timing.pollInterval (t.timeout - (time - start))) l' = .ok () l₁) :
    deadline t start [] l = .ok (.again start []) l₁ := by
  unfold deadline
  rw [bind_of_ok (get_apply l)]
  simp only [List.isEmpty_nil, ↓reduceIte]
  rw [bind_of_ok read, if_neg (Nat.not_le.mpr early), bind_of_ok slept]
  rfl

variable [Port P]

theorem receive_eq (l : Link P) (t : Transfer) :
    receive ⟨l, t⟩ = stored t (collect { t with phase := .receiving } l) := by
  cases heard : collect { t with phase := .receiving } l with
  | ok bytes l' => exact receive_of_ok heard
  | error e l' => exact receive_of_error heard

/-- A round that decides a wait which began at `start`, by the first of these that it finds. -/
inductive Decides (watched : Bool) (timeout start : Nat) (l : Link P) :
    EStateM.Result Failure (Link P) Bytes → Prop
  | cancelled (stopped : l.Stopped watched) : Decides watched timeout start l (.error .cancelled l)
  | fault {reason : String} {l₁ : Link P} (going : ¬ l.Stopped watched)
    (polled : Link.pollFramer l = .error (.io reason) l₁) :
    Decides watched timeout start l (.error (.io reason) l₁)
  | heard {m : Bytes} {rest : List Bytes} {l₁ : Link P} (going : ¬ l.Stopped watched)
    (polled : Link.pollFramer l = .ok () l₁) (queue : l₁.framer.queue = m :: rest) :
    Decides watched timeout start l (.ok m { l₁ with framer := { l₁.framer with queue := rest } })
  | late {time : Nat} {l₁ l₂ : Link P} (going : ¬ l.Stopped watched)
    (polled : Link.pollFramer l = .ok () l₁) (nothing : l₁.framer.queue = [])
    (read : Link.now l₁ = .ok time l₂) (late : start + timeout ≤ time) :
    Decides watched timeout start l (.error (.timedOut timeout) l₂)

/-- A round that finds nothing, sleeps, and leaves the decision to the next one. -/
inductive Defers (watched : Bool) (timeout start : Nat) (l : Link P) : Link P → Prop
  | sleeps {time : Nat} {l₁ l₂ l₃ : Link P} (going : ¬ l.Stopped watched)
    (polled : Link.pollFramer l = .ok () l₁) (nothing : l₁.framer.queue = [])
    (read : Link.now l₁ = .ok time l₂) (early : time - start < timeout)
    (slept : Link.sleep (min l₁.timing.pollInterval (timeout - (time - start))) l₂ = .ok () l₃) :
    Defers watched timeout start l l₃

theorem attempt_of_message (single : t.batch = false) {m : Bytes} {rest : List Bytes} {l₁ : Link P}
    (polled : Link.pollFramer l = .ok () l₁) (queue : l₁.framer.queue = m :: rest) (since : Nat)
    (got : List Bytes) : attempt t since got l =
      .ok (.done m) { l₁ with framer := { l₁.framer with queue := rest } } := by
  unfold attempt
  rw [bind_of_ok polled, single, bind_of_ok (takeMessages_single l₁)]
  simp [Framer.pop, queue]

theorem attempt_of_silence (single : t.batch = false) {l₁ : Link P}
    (polled : Link.pollFramer l = .ok () l₁) (nothing : l₁.framer.queue = []) (since : Nat)
    (got : List Bytes) : attempt t since got l = deadline t since got l₁ := by
  have taken : takeMessages false l₁ = .ok [] l₁ := by
    rw [takeMessages_single]
    simp [Framer.pop, nothing]
  unfold attempt
  rw [bind_of_ok polled, single, bind_of_ok taken]
  simp

theorem Decides.waits (decides : Decides t.watched t.timeout start l result)
    (single : t.batch = false) : Waits t start [] l result := by
  cases decides with
  | cancelled stopped => exact .failed (oneRound_of_stopped stopped start [])
  | fault going polled =>
    refine .failed ?_
    rw [oneRound_of_going going]
    exact bind_of_error polled
  | heard going polled queue =>
    refine .done ?_
    rw [oneRound_of_going going]
    exact attempt_of_message single polled queue start []
  | late going polled nothing read late =>
    refine .failed ?_
    rw [oneRound_of_going going, attempt_of_silence single polled nothing]
    exact deadline_of_late read (by omega)

theorem Defers.oneRound (defers : Defers t.watched t.timeout start l l') (single : t.batch = false) :
    oneRound t start [] l = .ok (.again start []) l' := by
  obtain ⟨going, polled, nothing, read, early, slept⟩ := defers
  rw [oneRound_of_going going, attempt_of_silence single polled nothing]
  exact deadline_of_early read early slept

theorem Decides.waits_of_defers (single : t.batch = false) {l₁ : Link P}
    (rounds : ReflTransGen (Defers t.watched t.timeout start) l l₁)
    (decides : Decides t.watched t.timeout start l₁ result) : Waits t start [] l result := by
  induction rounds using ReflTransGen.head_induction_on with
  | refl => exact decides.waits single
  | head first rest ih => exact .again (first.oneRound single) ih

variable [LawfulPort P]

theorem decides_or_defers (watched : Bool) (timeout : Nat) (started : start ≤ l.run.clock.time) :
    (∃ result, Decides watched timeout start l result) ∨ ∃ l', Defers watched timeout start l l' := by
  by_cases stopped : l.Stopped watched
  · exact .inl ⟨_, .cancelled stopped⟩
  cases polled : Link.pollFramer l with
  | error e l₁ =>
    obtain ⟨⟨reason, rfl⟩, -⟩ := Link.pollFramer_faulty polled
    exact .inl ⟨_, .fault stopped polled⟩
  | ok _ l₁ =>
    cases queue : l₁.framer.queue with
    | cons m rest => exact .inl ⟨_, .heard stopped polled queue⟩
    | nil =>
      obtain ⟨time, run, read⟩ := Link.now_ok l₁
      by_cases late : timeout ≤ time - start
      · -- the clock never shows a time before the start, not even to a timeout of zero
        obtain ⟨clock, -⟩ := Link.pollFramer_input polled
        obtain ⟨-, onwards, -⟩ := Link.now_clock read
        rw [clock] at onwards
        exact .inl ⟨_, .late stopped polled queue read (by omega)⟩
      · exact .inr ⟨_, .sleeps stopped polled queue read (Nat.not_le.mp late) rfl⟩

theorem Defers.keeps {watched : Bool} {timeout : Nat} (defers : Defers watched timeout start l l') :
    l'.framer.queue = l.framer.queue ∧ l.run.clock.time ≤ l'.run.clock.time := by
  obtain ⟨going, polled, nothing, read, early, slept⟩ := defers
  obtain ⟨clock, -⟩ := Link.pollFramer_input polled
  obtain ⟨shown, onwards, framer⟩ := Link.now_clock read
  cases slept
  constructor
  · rw [Link.pollFramer_queue_nil polled nothing, framer, nothing]
  · rw [clock, shown] at onwards
    exact Nat.le_trans onwards (Clock.sleep_le _ _)

theorem Decides.keeps {watched : Bool} {timeout : Nat} {e : Failure}
    (decides : Decides watched timeout start l (.error e l')) :
    l'.framer.queue = l.framer.queue := by
  cases decides with
  | cancelled stopped => rfl
  | fault going polled => rw [(Link.pollFramer_faulty polled).2]
  | late going polled nothing read late =>
    rw [(Link.now_clock read).2.2, nothing, Link.pollFramer_queue_nil polled nothing]

theorem Waits.decides_or_defers (waits : Waits t start [] l result) (single : t.batch = false)
    (started : start ≤ l.run.clock.time) :
    Decides t.watched t.timeout start l result ∨ ∃ l', Defers t.watched t.timeout start l l' := by
  rcases Exchange.decides_or_defers t.watched t.timeout started with ⟨other, decides⟩ | defers
  -- a wait comes to one thing only, so it is what this round decides
  · rw [waits.unique (decides.waits single)]
    exact .inl decides
  · exact .inr defers

theorem Waits.decided {got : List Bytes} (waits : Waits t start got l result) (nothing : got = [])
    (single : t.batch = false) (started : start ≤ l.run.clock.time) :
    ∃ l₁, ReflTransGen (Defers t.watched t.timeout start) l l₁ ∧
      Decides t.watched t.timeout start l₁ result := by
  induction waits with
  | failed ended =>
    subst nothing
    rcases (Waits.failed ended).decides_or_defers single started with decides | ⟨l₁, defers⟩
    · exact ⟨_, .refl, decides⟩
    · rw [defers.oneRound single] at ended
      cases ended
  | done ended =>
    subst nothing
    rcases (Waits.done ended).decides_or_defers single started with decides | ⟨l₁, defers⟩
    · exact ⟨_, .refl, decides⟩
    · rw [defers.oneRound single] at ended
      cases ended
  | again more rest ih =>
    subst nothing
    rcases (Waits.again more rest).decides_or_defers single started with decides | ⟨l₁, defers⟩
    · exact ⟨_, .refl, decides⟩
    · have onwards := defers.keeps.2
      rw [defers.oneRound single] at more
      cases more
      obtain ⟨l₂, rounds, decides⟩ := ih rfl (Nat.le_trans started onwards)
      exact ⟨l₂, .head defers rounds, decides⟩

theorem queue_of_defers {watched : Bool} {timeout : Nat}
    (rounds : ReflTransGen (Defers watched timeout start) l l') :
    l'.framer.queue = l.framer.queue := by
  induction rounds with
  | refl => rfl
  | tail rest last ih => exact last.keeps.1.trans ih

/-- A receive of a single message comes to what the first round decides that does not defer. So with
a job that is active at the first look, a message that the first poll finds is heard whatever the
timeout is; a receive times out by the clock only, in a round without a message; and a round that
begins with a cancelled job reads nothing. A failure leaves the queue and the bytes of the transfer
alone, and in any case the transfer is finished. -/
theorem receive_by_precedence (single : t.batch = false) (l : Link P) :
    ∃ start l₀, Link.now l = .ok start l₀ ∧
      let rounds := ReflTransGen (Defers t.watched t.timeout start) l₀
      let decides := Decides t.watched t.timeout start
      (∃ l₁ result, rounds l₁ ∧ decides l₁ result ∧ receive ⟨l, t⟩ = stored t result) ∧
      (∀ l₁ result, rounds l₁ → decides l₁ result → receive ⟨l, t⟩ = stored t result) ∧
      (∀ l₁ m rest, ¬ l₀.Stopped t.watched → Link.pollFramer l₀ = .ok () l₁ →
        l₁.framer.queue = m :: rest → receive ⟨l, t⟩ =
          .ok () ⟨{ l₁ with framer := { l₁.framer with queue := rest } },
            { t with raw := m, phase := .finished }⟩) ∧
      (∀ timeout x, receive ⟨l, t⟩ = .error (.timedOut timeout) x → timeout = t.timeout ∧
        ∃ l₁ l₂ time, rounds l₁ ∧ Link.pollFramer l₁ = .ok () l₂ ∧ l₂.framer.queue = [] ∧
          Link.now l₂ = .ok time x.link ∧ start + timeout ≤ time) ∧
      (∀ l₁, rounds l₁ → l₁.Stopped t.watched →
        receive ⟨l, t⟩ = .error .cancelled ⟨l₁, { t with phase := .finished }⟩) ∧
      (∀ e x, receive ⟨l, t⟩ = .error e x →
        x.link.framer.queue = l.framer.queue ∧ x.transfer = { t with phase := .finished }) ∧
      (final (receive ⟨l, t⟩)).transfer.phase = .finished := by
  obtain ⟨start, l₀, read, waits⟩ := collect_waits { t with phase := .receiving } l
  obtain ⟨shown, -, framer⟩ := Link.now_clock read
  obtain ⟨l₁, reached, decided⟩ := waits.decided rfl single (Nat.le_of_eq shown)
  have comes : ∀ l₁ result, ReflTransGen (Defers t.watched t.timeout start) l₀ l₁ →
      Decides t.watched t.timeout start l₁ result → receive ⟨l, t⟩ = stored t result := by
    intro l₁ result rounds decides
    rw [receive_eq, waits.unique (Decides.waits_of_defers single rounds decides)]
  have fails {e : Failure} {x : Exchange P} (failed : receive ⟨l, t⟩ = .error e x) :
      Decides t.watched t.timeout start l₁ (.error e x.link) ∧
        x.transfer = { t with phase := .finished } := by
    rw [comes l₁ _ reached decided] at failed
    obtain ⟨same, kept⟩ := stored_eq_error failed
    rw [same] at decided
    exact ⟨decided, kept⟩
  refine ⟨start, l₀, read, ⟨l₁, _, reached, decided, comes l₁ _ reached decided⟩, comes,
    ?message, ?late, ?cancelled, ?failed, ?finished⟩
  case message =>
    intro l₂ m rest going polled queue
    exact comes l₀ _ .refl (.heard going polled queue)
  case late =>
    intro timeout x failed
    obtain ⟨decides, -⟩ := fails failed
    cases decides with
    | late going polled nothing read late => exact ⟨rfl, l₁, _, _, reached, polled, nothing, read, late⟩
  case cancelled =>
    intro l₂ rounds stopped
    exact comes l₂ _ rounds (.cancelled stopped)
  case failed =>
    intro e x failed
    obtain ⟨decides, kept⟩ := fails failed
    rw [decides.keeps, queue_of_defers reached, framer]
    exact ⟨rfl, kept⟩
  case finished =>
    rw [receive_eq]
    cases collect { t with phase := .receiving } l <;> rfl

def hurriedLink : Link ScriptedPort :=
  Link.ofPort "scripted:0" { name := "scripted", reads := [.bytes [0xF0, 1, 0xF7, 0xF0],
    .fault ⟨.interrupted, "again"⟩, .bytes [2, 0xF7]] } Timing.standard

theorem hurriedLink_received :
    let t : Transfer := { raw := [9], timeout := 0, watched := true }
    let quiet : Link ScriptedPort := { hurriedLink with port := { name := "scripted" } }
    let cancelled : Link ScriptedPort := { hurriedLink with run := { job := (Job.create true).cancel } }
    (∃ x, receive ⟨hurriedLink, t⟩ = .ok () x ∧ x.transfer.raw = [0xF0, 1, 0xF7] ∧
      x.link.framer.queue = [[0xF0, 2, 0xF7]] ∧ x.transfer.phase = .finished) ∧
    (∃ x, receive ⟨quiet, t⟩ = .error (.timedOut 0) x ∧ x.transfer.raw = [9]) ∧
    (∃ x, receive ⟨cancelled, t⟩ = .error .cancelled x ∧ x.link.port = hurriedLink.port) := by
  intro t quiet cancelled
  have going : ¬ hurriedLink.Stopped t.watched := Link.not_stopped_of_active rfl _
  refine ⟨?_, ?_, ?_⟩
  · obtain ⟨start, l₀, read, -, -, heard, -⟩ := receive_by_precedence (t := t) rfl hurriedLink
    cases read
    have polled : Link.pollFramer hurriedLink = .ok () (final (Link.pollFramer hurriedLink)) := rfl
    exact ⟨_, heard _ [0xF0, 1, 0xF7] [[0xF0, 2, 0xF7]] going polled (by decide +kernel), rfl, rfl, rfl⟩
  · have late : receive ⟨quiet, t⟩ = .error (.timedOut 0) (final (receive ⟨quiet, t⟩)) := rfl
    obtain ⟨start, l₀, -, -, -, -, -, -, failed, -⟩ := receive_by_precedence (t := t) rfl quiet
    exact ⟨_, late, congrArg Transfer.raw (failed _ _ late).2⟩
  · obtain ⟨start, l₀, read, -, -, -, -, stopped, -⟩ := receive_by_precedence (t := t) rfl cancelled
    cases read
    exact ⟨_, stopped cancelled .refl ⟨rfl, rfl⟩, rfl⟩

end Exchange

end MidiStorage
