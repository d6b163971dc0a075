import MidiStorage.Port.Scripted
import MidiStorage.Proofs.Framing.Chunks
import MidiStorage.Proofs.Transfer.Replies

namespace MidiStorage

open MidiStorage.Action

variable {P : Type}

/-- A read of such a port may bring nothing or be put off, but it never fails for good. -/
structure Port.Steady [Port P] (I : P → Prop) : Prop where
  read (p : P) : I p → I (Port.read p).port
  write (p : P) (bytes : Bytes) : I p → I (Port.write p bytes).port
  mild (p : P) (e : PortError) : I p → (Port.read p).result = .error e →
    e.kind = .wouldBlock ∨ e.kind = .interrupted

namespace Link

structure Accounted (I : P → Prop) (results : List Bytes) (unframed : Bytes) (l : Link P) :
    Prop where
  port : I l.port
  stream : (Framer.putBack results l.framer).push unframed = Framer.push {} l.delivered
  disabled : l.cache.enabled = false

variable {I : P → Prop} {results : List Bytes} {unframed : Bytes} {l : Link P}

theorem Accounted.withRun (accounted : Accounted I results unframed l) (run : Run) :
    Accounted I results unframed { l with run } :=
  ⟨accounted.port, accounted.stream, accounted.disabled⟩

theorem Accounted.pop (accounted : Accounted I results [] l) :
    Accounted I (results ++ l.framer.pop.1.toList) [] { l with framer := l.framer.pop.2 } := by
  refine ⟨accounted.port, ?_, accounted.disabled⟩
  rw [Framer.putBack_pop]
  exact accounted.stream

variable [Port P]

def brought : Except PortError Bytes → Bytes
  | .ok bytes => bytes
  | .error _ => []

theorem readOnce_delivered (l : Link P) :
    (final (readOnce l)).delivered = l.delivered ++ brought (Port.read l.port).result := by
  cases result : (Port.read l.port).result with
  | error e => simp [readOnce, result, final, afterTurn, delivered, brought]
  | ok bytes => cases bytes <;> simp [readOnce, result, final, afterTurn, delivered, brought]

theorem Accounted.readOnce (accounted : Accounted I results unframed l) (steady : Port.Steady I) :
    Accounted I results (unframed ++ brought (Port.read l.port).result) (final (readOnce l)) := by
  refine ⟨steady.read l.port accounted.port, ?_, accounted.disabled⟩
  rw [readOnce_delivered, Framer.push_append, Framer.push_append, ← accounted.stream]
  rfl

theorem Accounted.readRounds (accounted : Accounted I results unframed l) (steady : Port.Steady I)
    (rounds : Nat) :
    ∃ bytes l', readRounds rounds unframed l = .ok bytes l' ∧ Accounted I results bytes l' := by
  induction rounds generalizing l unframed with
  | zero => exact ⟨unframed, l, rfl, accounted⟩
  | succ rounds ih =>
    have next := accounted.readOnce steady
    have once : Link.readOnce l = .ok (Port.read l.port).result (final (Link.readOnce l)) := rfl
    rw [Link.readRounds, bind_of_ok once]
    cases result : (Port.read l.port).result with
    | ok bytes =>
      rw [result] at next
      cases bytes with
      | nil =>
        rw [brought, List.append_nil] at next
        exact ⟨unframed, _, rfl, next⟩
      | cons b bytes => exact ih next
    | error e =>
      rw [result, brought, List.append_nil] at next
      dsimp only
      rcases steady.mild l.port e accounted.port result with blocked | interrupted
      · rw [if_pos blocked]
        exact ⟨unframed, _, rfl, next⟩
      · have goesOn : e.kind ≠ .wouldBlock := by rw [interrupted]; decide
        rw [if_neg goesOn, if_pos interrupted]
        exact ih next

theorem Accounted.pollFramer (accounted : Accounted I results [] l) (steady : Port.Steady I) :
    ∃ l', pollFramer l = .ok () l' ∧ Accounted I results [] l' := by
  obtain ⟨bytes, l₁, read, accounted₁⟩ :=
    accounted.readRounds steady (Port.readsLeft l.port + 1)
  have polled : poll l = .ok bytes l₁ := by
    unfold poll
    rw [bind_of_ok (get_apply l)]
    exact read
  refine ⟨{ l₁ with framer := l₁.framer.push bytes }, ?_, accounted₁.port, ?_, accounted₁.disabled⟩
  · unfold Link.pollFramer
    rw [bind_of_ok polled]
    rfl
  · rw [Framer.push_nil, ← Framer.putBack_push]
    exact accounted₁.stream

theorem writeOnce_delivered (bytes : Bytes) (l : Link P) :
    (final (writeOnce bytes l)).delivered = l.delivered := by
  cases result : (Port.write l.port bytes).result with
  | error e => simp [writeOnce, result, final, afterTurn, delivered]
  | ok n => cases n <;> simp [writeOnce, result, final, afterTurn, delivered]

theorem Accounted.writing (steady : Port.Steady I) (results : List Bytes) (bytes : Bytes) :
    Preserves (Accounted I results []) (writeOnce bytes) := by
  intro l accounted
  refine ⟨steady.write l.port bytes accounted.port, ?_, accounted.disabled⟩
  rw [writeOnce_delivered]
  exact accounted.stream

/-- The message of a call that succeeds is accounted for as handed out, and a call that fails
changes nothing in the account. -/
def Settled (I : P → Prop) (results : List Bytes) : EStateM.Result Failure (Link P) Bytes → Prop
  | .ok bytes l => Accounted I (results ++ [bytes]) [] l
  | .error _ l => Accounted I results [] l

end Link

namespace Exchange

open Link

variable [Port P] {I : P → Prop} {results : List Bytes} {l : Link P} {t : Transfer}

theorem collectRounds_settled (accounted : Accounted I results [] l) (steady : Port.Steady I)
    (single : t.batch = false) (rounds since : Nat) :
    Settled I results (collectRounds t rounds since [] l) := by
  induction rounds generalizing l with
  | zero => exact accounted
  | succ rounds ih =>
    obtain ⟨l', polled', accounted'⟩ := accounted.pollFramer steady
    have comes := round single rounds since l
    generalize collectRounds t (rounds + 1) since [] l = outcome at comes ⊢
    cases comes with
    | cancelled => exact accounted
    | fault polled =>
      rw [polled] at polled'
      cases polled'
    | heard polled message =>
      rw [polled] at polled'
      cases polled'
      have popped := accounted'.pop
      rw [message] at popped
      exact popped
    | late polled run =>
      rw [polled] at polled'
      cases polled'
      exact accounted'.withRun run
    | again polled run =>
      rw [polled] at polled'
      cases polled'
      exact ih (accounted'.withRun run)

theorem collect_settled (accounted : Accounted I results [] l) (steady : Port.Steady I)
    (single : t.batch = false) : Settled I results (collect t l) := by
  obtain ⟨start, run, read⟩ := now_ok l
  unfold collect
  rw [bind_of_ok read, bind_of_ok (get_apply _)]
  exact collectRounds_settled (accounted.withRun run) steady single _ start

theorem receive_settled (accounted : Accounted I results [] l) (steady : Port.Steady I)
    (single : t.batch = false) : Settled I results (withTransfer t receive l) := by
  have settled := collect_settled (t := { t with phase := .receiving }) accounted steady single
  cases heard : collect { t with phase := .receiving } l with
  | ok bytes l₁ =>
    rw [heard] at settled
    rw [withTransfer_of_ok (receive_of_ok heard)]
    exact settled
  | error e l₁ =>
    rw [heard] at settled
    rw [withTransfer_of_error (receive_of_error heard)]
    exact settled

theorem perform_settled (accounted : Accounted I results [] l) (steady : Port.Steady I)
    (single : t.batch = false) : Settled I results (withTransfer t perform l) := by
  have sends := sendSlices_preserves (Accounted.writing steady results) t.watched
    (t.raw.slices Transfer.sliceSize)
  have answered := exchange_answered t l
  change Settled I results (exchange t l)
  generalize exchange t l = result at answered ⊢
  cases answered with
  | remembered known =>
    rw [remembered_of_disabled accounted.disabled] at known
    cases known
  | unsent unknown failed => exact sends.of_error accounted failed
  | unheard unknown sent failed =>
    have settled := collect_settled (t := { t with phase := .receiving })
      (sends.of_ok accounted sent) steady single
    rw [failed] at settled
    exact settled
  | heard unknown sent heard =>
    have settled := collect_settled (t := { t with phase := .receiving })
      (sends.of_ok accounted sent) steady single
    rw [heard] at settled
    rw [keep_disabled settled.disabled]
    exact settled

end Exchange

namespace Link

variable [Port P] {I : P → Prop}

inductive Call
  | receive (t : Transfer) (single : t.batch = false)
  | transact (request : Bytes) (timeout : Nat) (watched : Bool)

def Call.action : Call → Action (Link P) Bytes
  | receive t _ => withTransfer t Exchange.receive
  | transact request timeout watched => Link.transact request timeout watched

def call (state : List Bytes × Link P) (visit : Run × Call) : List Bytes × Link P :=
  match visit.2.action { state.2 with run := visit.1 } with
  | .ok bytes l => (state.1 ++ [bytes], l)
  | .error _ l => (state.1, l)

theorem Accounted.call {state : List Bytes × Link P} (accounted : Accounted I state.1 [] state.2)
    (steady : Port.Steady I) (visit : Run × Call) :
    Accounted I (call state visit).1 [] (call state visit).2 := by
  obtain ⟨run, called⟩ := visit
  have settled : Settled I state.1 (called.action { state.2 with run }) := by
    cases called with
    | receive t single => exact Exchange.receive_settled (accounted.withRun run) steady single
    | transact request timeout watched =>
      exact Exchange.perform_settled (accounted.withRun run) steady rfl
  unfold Link.call
  cases result : called.action { state.2 with run } with
  | ok bytes l =>
    rw [result] at settled
    exact settled
  | error e l =>
    rw [result] at settled
    exact settled

theorem Accounted.calls {state : List Bytes × Link P} (accounted : Accounted I state.1 [] state.2)
    (steady : Port.Steady I) (visits : List (Run × Call)) :
    Accounted I (visits.foldl Link.call state).1 [] (visits.foldl Link.call state).2 := by
  induction visits generalizing state with
  | nil => exact accounted
  | cons visit visits ih => exact ih (accounted.call steady visit)

/-- The results of the calls that succeed, in their order, and then the messages still queued are
the messages of all the bytes that the port delivered, however the other calls ended. -/
theorem receives_lossless (steady : Port.Steady I) {port : P} (start : I port) (id : String)
    (timing : Timing) (visits : List (Run × Call)) :
    let (results, l) := visits.foldl call ([], ofPort id port timing)
    results ++ l.framer.queue = Framer.messages l.delivered := by
  have fresh : Accounted I [] [] (ofPort id port timing) := ⟨start, rfl, rfl⟩
  exact congrArg Framer.queue (fresh.calls steady visits).stream

end Link

def ReadEntry.IsMild : ReadEntry → Prop
  | .fault e => e.kind = .wouldBlock ∨ e.kind = .interrupted
  | _ => True

instance : (entry : ReadEntry) → Decidable entry.IsMild
  | .fault e => inferInstanceAs (Decidable (e.kind = .wouldBlock ∨ e.kind = .interrupted))
  | .bytes _ | .cancel => isTrue trivial

theorem ScriptedPort.steady :
    Port.Steady fun p : ScriptedPort => ∀ entry ∈ p.reads, entry.IsMild where
  read p mild := by
    obtain ⟨name, reads, writes⟩ := p
    cases reads with
    | nil => exact mild
    | cons first rest =>
      have others : ∀ entry ∈ rest, entry.IsMild := fun entry member =>
        mild entry (List.mem_cons_of_mem _ member)
      cases first with
      | fault e => exact others
      | cancel => exact others
      | bytes bs =>
        change ∀ entry ∈ (if (bs.drop Port.readSize).isEmpty then rest
          else .bytes (bs.drop Port.readSize) :: rest), entry.IsMild
        split_ifs with whole
        · exact others
        · intro entry member
          rcases List.mem_cons.mp member with rfl | later
          · trivial
          · exact others entry later
  write p bytes mild := by
    obtain ⟨name, reads, writes⟩ := p
    cases writes with
    | nil => exact mild
    | cons first rest => cases first <;> exact mild
  mild p e mild fault := by
    obtain ⟨name, reads, writes⟩ := p
    cases reads with
    | nil => cases fault
    | cons first rest =>
      cases first with
      | bytes bs => cases fault
      | cancel => cases fault
      | fault other =>
        cases fault
        exact mild (.fault e) (List.mem_cons_self ..)

def inPieces : ScriptedPort where
  name := "scripted"
  reads := [.bytes [0xF0, 1, 0xF7, 0xF0], .fault ⟨.interrupted, "again"⟩, .bytes [2],
    .fault ⟨.wouldBlock, "later"⟩, .bytes [0xF7, 0xF0, 3, 0xF7, 0xF0, 4]]
  writes := [.accept 2, .fault ⟨.brokenPipe, "unplugged"⟩]

open Link in
theorem inPieces_lossless :
    let receive : Call := .receive { raw := [], timeout := 0, watched := true } rfl
    let visits := [({}, .transact [0xF0, 9, 0xF7] 0 false), ({}, receive),
      ({ job := (Job.create true).cancel }, receive), ({}, receive)]
    let (results, l) := visits.foldl call ([], ofPort "scripted:0" inPieces Timing.standard)
    results = [[0xF0, 1, 0xF7], [0xF0, 2, 0xF7]] ∧ l.framer.queue = [[0xF0, 3, 0xF7]] ∧
      results ++ l.framer.queue = Framer.messages l.delivered := by
  intro receive visits
  have mild : ∀ entry ∈ inPieces.reads, entry.IsMild := by decide
  refine ⟨by decide +kernel, by decide +kernel, ?_⟩
  exact receives_lossless ScriptedPort.steady mild "scripted:0" Timing.standard visits

end MidiStorage
