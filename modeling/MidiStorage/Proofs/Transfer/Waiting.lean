import MidiStorage.Proofs.Transfer.Replies

namespace MidiStorage

open MidiStorage.Action

variable {P : Type}

namespace Clock

/-- More than the readings that are still taken before `limit` has passed since `since`. -/
def left (c : Clock) (limit since : Nat) : Nat := c.script.length + (1000 * (since + limit) - c.micros)

theorem left_le (c : Clock) (limit : Nat) : c.left limit c.time ≤ c.script.length + 1000 * limit := by
  unfold left time
  omega

theorem left_sleep_lt {r r' : Run} {time limit since : Nat} (read : Run.now r = .ok time r')
    (early : time - since < limit) (duration : Nat) :
    (r'.clock.sleep duration).left limit since < r.clock.left limit since := by
  unfold Run.now at read
  cases script : r.clock.script with
  | nil =>
    simp only [script, EStateM.Result.ok.injEq] at read
    obtain ⟨rfl, rfl⟩ := read
    simp only [sleep, script, left, Clock.time] at early ⊢
    omega
  | cons tick rest =>
    simp only [script, EStateM.Result.ok.injEq] at read
    obtain ⟨rfl, rfl⟩ := read
    cases rest <;> simp only [sleep, advance, script, left, List.length_cons, List.length_nil] <;> omega

theorem now_time {r r' : Run} {time : Nat} (read : Run.now r = .ok time r') :
    time = r'.clock.time ∧ r'.clock.script.length ≤ r.clock.script.length := by
  unfold Run.now at read
  cases script : r.clock.script with
  | nil =>
    simp only [script, EStateM.Result.ok.injEq] at read
    obtain ⟨rfl, rfl⟩ := read
    simp [script]
  | cons tick rest =>
    simp only [script, EStateM.Result.ok.injEq] at read
    obtain ⟨rfl, rfl⟩ := read
    simp

end Clock

namespace Link

theorem onRun_eq_ok {α : Type} {a : Action Run α} {l l' : Link P} {x : α}
    (run : onRun a l = .ok x l') : ∃ r, a l.run = .ok x r ∧ l' = { l with run := r } := by
  unfold onRun within at run
  cases inner : a l.run with
  | ok y r =>
    simp only [inner] at run
    cases run
    exact ⟨r, rfl, rfl⟩
  | error e r =>
    simp only [inner] at run
    cases run

def inputLeft [Port P] (l : Link P) : Nat :=
  Port.readsLeft l.port + if l.framer.queue = [] then 0 else 1

variable [Port P] [LawfulPort P]

theorem readOnce_input (l : Link P) :
    ∃ l', readOnce l = .ok (Port.read l.port).result l' ∧ l'.run.clock = l.run.clock ∧
      l'.framer = l.framer ∧ l'.timing = l.timing ∧
      Port.readsLeft l'.port ≤ Port.readsLeft l.port ∧
      (Port.goesOn (Port.read l.port).result → Port.readsLeft l'.port < Port.readsLeft l.port) := by
  refine ⟨_, rfl, ?_, rfl, rfl, LawfulPort.readsLeft_le l.port, LawfulPort.readsLeft_lt l.port⟩
  unfold afterTurn
  dsimp only
  split_ifs <;> rfl

theorem readRounds_input {rounds : Nat} {got bytes : Bytes} {l l' : Link P}
    (run : readRounds rounds got l = .ok bytes l') :
    l'.run.clock = l.run.clock ∧ l'.framer = l.framer ∧ l'.timing = l.timing ∧
      Port.readsLeft l'.port ≤ Port.readsLeft l.port ∧
      (bytes ≠ got → Port.readsLeft l'.port < Port.readsLeft l.port) := by
  induction rounds generalizing got l with
  | zero =>
    cases run
    exact ⟨rfl, rfl, rfl, Nat.le_refl _, fun more => absurd rfl more⟩
  | succ rounds ih =>
    obtain ⟨next, once, clock, framer, timing, fewer, goesOn⟩ := readOnce_input l
    rw [readRounds, bind_of_ok once] at run
    cases result : (Port.read l.port).result with
    | ok some =>
      rw [result] at run goesOn
      cases some with
      | nil =>
        cases run
        exact ⟨clock, framer, timing, fewer, fun more => absurd rfl more⟩
      | cons b rest =>
        obtain ⟨clock', framer', timing', below, -⟩ := ih run
        have taken := goesOn rfl
        refine ⟨clock'.trans clock, framer'.trans framer, timing'.trans timing, by omega, ?_⟩
        intro _
        omega
    | error e =>
      rw [result] at run
      dsimp only at run
      split_ifs at run with blocked interrupted
      · cases run
        exact ⟨clock, framer, timing, fewer, fun more => absurd rfl more⟩
      · obtain ⟨clock', framer', timing', below, used⟩ := ih run
        refine ⟨clock'.trans clock, framer'.trans framer, timing'.trans timing, by omega, ?_⟩
        intro more
        have taken := used more
        omega
      · cases run

theorem pollFramer_input {l l' : Link P} (run : pollFramer l = .ok () l') :
    l'.run.clock = l.run.clock ∧ l'.timing = l.timing ∧
      Port.readsLeft l'.port ≤ Port.readsLeft l.port ∧
      (l'.framer.queue ≠ [] → Port.readsLeft l'.port < l.inputLeft) := by
  unfold pollFramer poll at run
  rw [bind_eq_ok] at run
  obtain ⟨bytes, l₁, polled, pushed⟩ := run
  rw [bind_of_ok (get_apply l)] at polled
  cases pushed
  obtain ⟨clock, framer, timing, below, used⟩ := readRounds_input polled
  refine ⟨clock, timing, below, ?_⟩
  intro queued
  dsimp only at queued ⊢
  unfold inputLeft
  by_cases nothing : bytes = []
  · rw [nothing, Framer.push_nil, framer] at queued
    rw [if_neg queued]
    omega
  · have taken := used nothing
    omega

end Link

namespace Exchange

inductive Verdict
  | done (bytes : Bytes)
  | again (since : Nat) (got : List Bytes)

def deadline (t : Transfer) (since : Nat) (got : List Bytes) : Action (Link P) Verdict := do
  let timing := (← get).timing
  let limit := if got.isEmpty then t.timeout else timing.idleTimeout
  let elapsed := (← Link.now) - since
  if limit ≤ elapsed then return .done (← settle t.timeout got)
  else
    Link.sleep (min timing.pollInterval (limit - elapsed))
    pure (.again since got)

def attempt [Port P] (t : Transfer) (since : Nat) (got : List Bytes) : Action (Link P) Verdict := do
  Link.pollFramer
  let fresh ← takeMessages t.batch
  if !t.batch && !fresh.isEmpty then pure (.done fresh.flatten)
  else if fresh.isEmpty then deadline t since (got ++ fresh)
  else Link.now >>= fun since => deadline t since (got ++ fresh)

def oneRound [Port P] (t : Transfer) (since : Nat) (got : List Bytes) : Action (Link P) Verdict := do
  Link.check t.watched
  attempt t since got

def follow [Port P] (t : Transfer) (rounds : Nat) : Verdict → Action (Link P) Bytes
  | .done bytes => pure bytes
  | .again since got => collectRounds t rounds since got

variable [Port P]

theorem goOn_eq (t : Transfer) (rounds since : Nat) (got : List Bytes) :
    goOn (P := P) t rounds since got = deadline t since got >>= follow t rounds := by
  unfold goOn deadline
  simp only [bind_assoc]
  congr 1
  funext l
  congr 1
  funext time
  split_ifs
  all_goals simp only [bind_assoc, pure_bind, follow, bind_pure]

theorem collectRounds_oneRound (t : Transfer) (rounds since : Nat) (got : List Bytes) :
    collectRounds (P := P) t (rounds + 1) since got = oneRound t since got >>= follow t rounds := by
  rw [collectRounds_succ]
  unfold oneRound attempt
  simp only [bind_assoc]
  congr 1
  funext _
  congr 1
  funext _
  congr 1
  funext fresh
  split_ifs
  · simp only [pure_bind, follow]
  · exact goOn_eq t rounds since _
  · simp only [goOn_eq, bind_assoc]

theorem oneRound_of_stopped {t : Transfer} {l : Link P} (stopped : l.Stopped t.watched) (since : Nat)
    (got : List Bytes) : oneRound t since got l = .error .cancelled l := by
  unfold oneRound
  rw [bind_of_error (Link.check_of_stopped stopped)]

theorem oneRound_of_going {t : Transfer} {l : Link P} (going : ¬ l.Stopped t.watched) (since : Nat)
    (got : List Bytes) : oneRound t since got l = attempt t since got l := by
  unfold oneRound
  rw [bind_of_ok (Link.check_of_not_stopped going)]

theorem oneRound_eq_ok {t : Transfer} {since : Nat} {got : List Bytes} {l l' : Link P}
    {verdict : Verdict} : oneRound t since got l = .ok verdict l' ↔
      ¬ l.Stopped t.watched ∧ attempt t since got l = .ok verdict l' := by
  by_cases stopped : l.Stopped t.watched
  · simp [oneRound_of_stopped stopped, stopped]
  · simp [oneRound_of_going stopped, stopped]

def roundsLeft (limit since : Nat) (l : Link P) : Nat :=
  l.run.clock.left limit since + l.inputLeft * Clock.sleeps limit

omit [Port P] in
theorem deadline_again {t : Transfer} {since since' : Nat} {got got' : List Bytes} {l l' : Link P}
    (run : deadline t since got l = .ok (.again since' got') l') {limit : Nat}
    (first : t.timeout ≤ limit) (idle : l.timing.idleTimeout ≤ limit) :
    since' = since ∧ l'.timing = l.timing ∧ l'.port = l.port ∧ l'.framer = l.framer ∧
      l'.run.clock.left limit since < l.run.clock.left limit since := by
  unfold deadline at run
  rw [bind_of_ok (get_apply l), bind_eq_ok] at run
  obtain ⟨time, l₁, read, run⟩ := run
  obtain ⟨r, now, rfl⟩ := Link.onRun_eq_ok read
  have within : (if got.isEmpty then t.timeout else l.timing.idleTimeout) ≤ limit := by
    split_ifs <;> assumption
  generalize (if got.isEmpty then t.timeout else l.timing.idleTimeout) = wait at run within
  split_ifs at run with late
  · rw [bind_eq_ok] at run
    obtain ⟨bytes, l₂, -, ended⟩ := run
    cases ended
  · cases run
    have early : time - since < limit := by omega
    exact ⟨rfl, rfl, rfl, rfl, Clock.left_sleep_lt now early _⟩

omit [Port P] in
theorem takeMessages_input {batch : Bool} {l l' : Link P} {fresh : List Bytes}
    (run : takeMessages batch l = .ok fresh l') (more : ¬ (!batch && !fresh.isEmpty) = true) :
    l'.run = l.run ∧ l'.timing = l.timing ∧ l'.port = l.port ∧ l'.framer.queue = [] ∧
      (fresh ≠ [] → l.framer.queue ≠ []) := by
  cases batch with
  | true =>
    cases run
    exact ⟨rfl, rfl, rfl, rfl, fun some => some⟩
  | false =>
    rw [takeMessages_single] at run
    cases run
    cases queue : l.framer.queue with
    | nil =>
      have nothing : l.framer.pop = (none, l.framer) := by simp [Framer.pop, queue]
      simp [nothing, queue]
    | cons m ms => simp [Framer.pop, queue] at more

theorem attempt_again [LawfulPort P] {t : Transfer} {since since' : Nat} {got got' : List Bytes}
    {l l' : Link P} (run : attempt t since got l = .ok (.again since' got') l') {limit : Nat}
    (first : t.timeout ≤ limit) (idle : l.timing.idleTimeout ≤ limit) :
    l'.timing = l.timing ∧ roundsLeft limit since' l' < roundsLeft limit since l := by
  unfold attempt at run
  rw [bind_eq_ok] at run
  obtain ⟨_, l₁, polled, run⟩ := run
  obtain ⟨clock₁, timing₁, below, used⟩ := Link.pollFramer_input polled
  rw [bind_eq_ok] at run
  obtain ⟨fresh, l₂, taken, run⟩ := run
  split_ifs at run with ended nothing
  · cases run
  · obtain ⟨run₂, timing₂, port₂, queue₂, -⟩ := takeMessages_input taken ended
    rw [← timing₁, ← timing₂] at idle
    obtain ⟨rfl, timing', port', framer', nearer⟩ := deadline_again run first idle
    refine ⟨timing'.trans (timing₂.trans timing₁), ?_⟩
    rw [run₂, clock₁] at nearer
    have input : l'.inputLeft ≤ l.inputLeft := by
      simp only [Link.inputLeft, port', framer', port₂, queue₂, ↓reduceIte]
      omega
    have uses := Nat.mul_le_mul_right (Clock.sleeps limit) input
    unfold roundsLeft
    omega
  · obtain ⟨run₂, timing₂, port₂, queue₂, queued⟩ := takeMessages_input taken ended
    rw [bind_eq_ok] at run
    obtain ⟨time, l₃, read, run⟩ := run
    obtain ⟨r, now, rfl⟩ := Link.onRun_eq_ok read
    rw [← timing₁, ← timing₂] at idle
    obtain ⟨rfl, timing', port', framer', nearer⟩ := deadline_again run first idle
    refine ⟨timing'.trans (timing₂.trans timing₁), ?_⟩
    obtain ⟨rfl, shorter⟩ := Clock.now_time now
    have reset := r.clock.left_le limit
    rw [run₂, clock₁] at shorter
    -- the deadline is put off, but the messages that did so used up input
    have input : l'.inputLeft + 1 ≤ l.inputLeft := by
      have some : fresh ≠ [] := fun none => nothing (List.isEmpty_iff.mpr none)
      have taken := used (queued some)
      simp only [Link.inputLeft, port', framer', port₂, queue₂, ↓reduceIte] at taken ⊢
      omega
    have uses := Nat.mul_le_mul_right (Clock.sleeps limit) input
    rw [Nat.succ_mul] at uses
    have script : l.run.clock.script.length ≤ l.run.clock.left limit since := Nat.le_add_right _ _
    dsimp only at nearer
    unfold roundsLeft
    unfold Clock.sleeps at uses ⊢
    omega

/-- What a wait comes to: how the first of its rounds ends that does not ask for another. -/
inductive Waits (t : Transfer) :
    Nat → List Bytes → Link P → EStateM.Result Failure (Link P) Bytes → Prop
  | failed {since : Nat} {got : List Bytes} {l l' : Link P} {e : Failure}
    (ended : oneRound t since got l = .error e l') : Waits t since got l (.error e l')
  | done {since : Nat} {got : List Bytes} {l l' : Link P} {bytes : Bytes}
    (ended : oneRound t since got l = .ok (.done bytes) l') : Waits t since got l (.ok bytes l')
  | again {since since' : Nat} {got got' : List Bytes} {l l' : Link P}
    {result : EStateM.Result Failure (Link P) Bytes}
    (more : oneRound t since got l = .ok (.again since' got') l')
    (rest : Waits t since' got' l' result) : Waits t since got l result

theorem collectRounds_waits [LawfulPort P] {t : Transfer} {limit rounds since : Nat}
    {got : List Bytes} {l : Link P} (first : t.timeout ≤ limit) (idle : l.timing.idleTimeout ≤ limit)
    (enough : roundsLeft limit since l < rounds) :
    Waits t since got l (collectRounds t rounds since got l) := by
  induction rounds generalizing since got l with
  | zero => omega
  | succ rounds ih =>
    rw [collectRounds_oneRound]
    cases run : oneRound t since got l with
    | error e l' =>
      rw [bind_of_error run]
      exact .failed run
    | ok verdict l' =>
      rw [bind_of_ok run]
      cases verdict with
      | done bytes => exact .done run
      | again since' got' =>
        obtain ⟨timing, fewer⟩ := attempt_again (oneRound_eq_ok.mp run).2 first idle
        rw [← timing] at idle
        exact .again run (ih idle (by omega))

/-- The rounds that a wait is given are enough for it to end by itself. -/
theorem collect_waits [LawfulPort P] (t : Transfer) (l : Link P) :
    ∃ start l₁, Link.now l = .ok start l₁ ∧ Waits t start [] l₁ (collect t l) := by
  obtain ⟨start, r, read⟩ := Link.now_ok l
  obtain ⟨r', now, same⟩ := Link.onRun_eq_ok read
  cases same
  obtain ⟨rfl, -⟩ := Clock.now_time now
  refine ⟨_, _, read, ?_⟩
  unfold collect
  rw [bind_of_ok read, bind_of_ok (get_apply _)]
  have first : t.timeout ≤ max t.timeout l.timing.idleTimeout := Nat.le_max_left _ _
  have idle : l.timing.idleTimeout ≤ max t.timeout l.timing.idleTimeout := Nat.le_max_right _ _
  apply collectRounds_waits (l := { l with run := r }) first idle
  dsimp only
  generalize max t.timeout l.timing.idleTimeout = limit
  have clock := r.clock.left_le limit
  have input : Link.inputLeft { l with run := r } ≤ Port.readsLeft l.port + 1 := by
    unfold Link.inputLeft
    dsimp only
    split_ifs <;> omega
  have uses := Nat.mul_le_mul_right (Clock.sleeps limit) input
  rw [Clock.rounds_zero_add, Nat.succ_mul (Port.readsLeft l.port + 1)]
  unfold roundsLeft
  unfold Clock.sleeps at uses ⊢
  dsimp only
  omega

theorem Waits.unique {t : Transfer} {since : Nat} {got : List Bytes} {l : Link P}
    {first second : EStateM.Result Failure (Link P) Bytes} (waits : Waits t since got l first)
    (other : Waits t since got l second) : first = second := by
  induction waits with
  | failed ended =>
    cases other with
    | failed ended' => simp_all
    | done ended' => simp_all
    | again more rest => simp_all
  | done ended =>
    cases other with
    | failed ended' => simp_all
    | done ended' => simp_all
    | again more rest => simp_all
  | again more rest ih =>
    cases other with
    | failed ended => simp_all
    | done ended => simp_all
    | again more' rest' =>
      rw [more] at more'
      cases more'
      exact ih rest'

inductive Reaches (t : Transfer) : Nat → List Bytes → Link P → Nat → List Bytes → Link P → Prop
  | here {since : Nat} {got : List Bytes} {l : Link P} : Reaches t since got l since got l
  | next {since since' since'' : Nat} {got got' got'' : List Bytes} {l l' l'' : Link P}
    (more : oneRound t since got l = .ok (.again since' got') l')
    (rest : Reaches t since' got' l' since'' got'' l'') : Reaches t since got l since'' got'' l''

theorem Reaches.waits {t : Transfer} {since since' : Nat} {got got' : List Bytes} {l l' : Link P}
    {result : EStateM.Result Failure (Link P) Bytes} (reaches : Reaches t since got l since' got' l')
    (waits : Waits t since' got' l' result) : Waits t since got l result := by
  induction reaches with
  | here => exact waits
  | next more rest ih => exact .again more (ih waits)

theorem waits_ok_iff {t : Transfer} {since : Nat} {got : List Bytes} {l l' : Link P} {bytes : Bytes} :
    Waits t since got l (.ok bytes l') ↔ ∃ since₁ got₁ l₁, Reaches t since got l since₁ got₁ l₁ ∧
      oneRound t since₁ got₁ l₁ = .ok (.done bytes) l' := by
  constructor
  · intro waits
    generalize ending : EStateM.Result.ok bytes l' = result at waits
    induction waits with
    | failed ended => cases ending
    | done ended =>
      cases ending
      exact ⟨_, _, _, .here, ended⟩
    | again more rest ih =>
      obtain ⟨since₁, got₁, l₁, reaches, last⟩ := ih ending
      exact ⟨since₁, got₁, l₁, .next more reaches, last⟩
  · rintro ⟨since₁, got₁, l₁, reaches, ended⟩
    exact reaches.waits (.done ended)

end Exchange

end MidiStorage
