import Mathlib.Tactic.Common
import MidiStorage.Exchange
import MidiStorage.Proofs.Action

namespace MidiStorage

open MidiStorage.Action

variable {P : Type}

theorem Clock.rounds_zero_add (c : Clock) (more : Nat) :
    c.rounds 0 + more = c.script.length + more + 1 := by
  have one : sleeps 0 = 1 := rfl
  unfold rounds
  omega

theorem Run.now_ok (r : Run) : ∃ time r', Run.now r = .ok time r' := by
  unfold Run.now
  cases r.clock.script with
  | nil => exact ⟨_, _, rfl⟩
  | cons tick script => exact ⟨_, _, rfl⟩

namespace Link

theorem onRun_of_ok {α : Type} {l : Link P} {a : Action Run α} {x : α} {run : Run}
    (inner : a l.run = .ok x run) : onRun a l = .ok x { l with run } :=
  within_of_ok inner

theorem now_ok (l : Link P) : ∃ time run, now l = .ok time { l with run } := by
  obtain ⟨time, run, read⟩ := Run.now_ok l.run
  exact ⟨time, run, onRun_of_ok read⟩

/-- No step of a wait breaks the property. -/
structure Lasting [Port P] (I : Link P → Prop) : Prop where
  run (l : Link P) (run : Run) : I l → I { l with run }
  read : Preserves I readOnce
  push (l : Link P) (bytes : Bytes) : I l → I { l with framer := l.framer.push bytes }
  pop (l : Link P) : I l → I { l with framer := l.framer.pop.2 }
  popAll (l : Link P) : I l → I { l with framer := l.framer.popAll.2 }

/-- The same, where the clock and the job move only as a wait moves them. -/
structure Abiding [Port P] (I : Link P → Prop) : Prop where
  now : Preserves I now
  sleep (duration : Nat) : Preserves I (sleep duration)
  read : Preserves I readOnce
  push (l : Link P) (bytes : Bytes) : I l → I { l with framer := l.framer.push bytes }
  pop (l : Link P) : I l → I { l with framer := l.framer.pop.2 }
  popAll (l : Link P) : I l → I { l with framer := l.framer.popAll.2 }

theorem final_check (watched : Bool) (l : Link P) : final (check watched l) = l := by
  cases watched <;> cases active : l.run.job.active <;>
    simp [check, onRun, Run.check, within, bind_apply, active, final]

theorem check_preserves (I : Link P → Prop) (watched : Bool) : Preserves I (check watched) := by
  intro l before
  rwa [final_check]

section Lasting

variable [Port P] {I : Link P → Prop}

theorem Lasting.onRun (lasting : Lasting I) {α : Type} (a : Action Run α) : Preserves I (onRun a) :=
  Preserves.apart lasting.run a

theorem Lasting.abiding (lasting : Lasting I) : Abiding I where
  now := lasting.onRun _
  sleep _ := lasting.onRun _
  read := lasting.read
  push := lasting.push
  pop := lasting.pop
  popAll := lasting.popAll

theorem readRounds_preserves (read : Preserves I readOnce) (rounds : Nat) (got : Bytes) :
    Preserves I (readRounds rounds got) := by
  induction rounds generalizing got with
  | zero => exact Preserves.pure _ got
  | succ rounds ih =>
    rw [Link.readRounds]
    refine read.bind ?_
    intro result
    cases result with
    | ok bytes =>
      cases bytes with
      | nil => exact Preserves.pure _ got
      | cons b bytes => exact ih (got ++ b :: bytes)
    | error e =>
      dsimp only
      split_ifs with blocked interrupted
      · exact Preserves.pure _ got
      · exact ih got
      · exact Preserves.throw _ _

theorem poll_preserves (read : Preserves I readOnce) : Preserves I poll :=
  (Preserves.get _).bind fun _ => readRounds_preserves read _ _

theorem Abiding.pollFramer (abiding : Abiding I) : Preserves I pollFramer :=
  (poll_preserves abiding.read).bind fun bytes => Preserves.modify fun l => abiding.push l bytes

theorem Lasting.pollFramer (lasting : Lasting I) : Preserves I pollFramer :=
  lasting.abiding.pollFramer

end Lasting

theorem accepted_lasting [Port P] (bytes : Bytes) : Lasting (P := P) (·.accepted = bytes) where
  run _ _ same := same
  read := by
    intro l same
    rw [← same]
    cases result : (Port.read l.port).result with
    | error e => simp [readOnce, result, final, afterTurn, accepted]
    | ok got => cases got <;> simp [readOnce, result, final, afterTurn, accepted]
  push _ _ same := same
  pop _ same := same
  popAll _ same := same

end Link

namespace Exchange

theorem settle_preserves (I : Link P → Prop) (timeout : Nat) (got : List Bytes) :
    Preserves I (settle timeout got) := by
  rw [settle]
  split_ifs with nothing
  · exact Preserves.throw _ _
  · exact Preserves.pure _ _

theorem takeMessages_single (l : Link P) :
    takeMessages false l = .ok l.framer.pop.1.toList { l with framer := l.framer.pop.2 } := rfl

def goOn [Port P] (t : Transfer) (rounds since : Nat) (got : List Bytes) :
    Action (Link P) Bytes := do
  let timing := (← get).timing
  let limit := if got.isEmpty then t.timeout else timing.idleTimeout
  let elapsed := (← Link.now) - since
  if limit ≤ elapsed then settle t.timeout got
  else
    Link.sleep (min timing.pollInterval (limit - elapsed))
    collectRounds t rounds since got

theorem collectRounds_succ [Port P] (t : Transfer) (rounds since : Nat) (got : List Bytes) :
    collectRounds (P := P) t (rounds + 1) since got = (do
      Link.check t.watched
      Link.pollFramer
      let fresh ← takeMessages t.batch
      if !t.batch && !fresh.isEmpty then pure fresh.flatten
      else if fresh.isEmpty then goOn t rounds since (got ++ fresh)
      else Link.now >>= fun since => goOn t rounds since (got ++ fresh)) := rfl

section Lasting

variable [Port P] {I : Link P → Prop}

theorem takeMessages_abiding (abiding : Link.Abiding I) (batch : Bool) :
    Preserves I (takeMessages batch) := by
  cases batch with
  | true => exact Preserves.modifyGet abiding.popAll
  | false => exact (Preserves.modifyGet abiding.pop).bind fun _ => Preserves.pure _ _

theorem collectRounds_abiding (abiding : Link.Abiding I) (t : Transfer) (rounds since : Nat)
    (got : List Bytes) : Preserves I (collectRounds t rounds since got) := by
  induction rounds generalizing since got with
  | zero => exact settle_preserves _ _ _
  | succ rounds ih =>
    have goOn_preserves (since : Nat) (got : List Bytes) : Preserves I (goOn t rounds since got) := by
      unfold goOn
      refine (Preserves.get _).bind ?_
      intro l
      refine abiding.now.bind ?_
      intro time
      dsimp only
      generalize (if got.isEmpty then t.timeout else l.timing.idleTimeout) = limit
      split_ifs with late
      · exact settle_preserves _ _ _
      · exact (abiding.sleep _).bind fun _ => ih _ _
    rw [collectRounds_succ]
    refine (Link.check_preserves _ _).bind ?_
    intro _
    refine abiding.pollFramer.bind ?_
    intro _
    refine (takeMessages_abiding abiding _).bind ?_
    intro fresh
    split_ifs with single
    · exact Preserves.pure _ _
    · exact goOn_preserves _ _
    · exact abiding.now.bind fun _ => goOn_preserves _ _

theorem collect_abiding (abiding : Link.Abiding I) (t : Transfer) : Preserves I (collect t) :=
  abiding.now.bind fun _ => (Preserves.get _).bind fun _ => collectRounds_abiding abiding t _ _ _

theorem takeMessages_preserves (lasting : Link.Lasting I) (batch : Bool) :
    Preserves I (takeMessages batch) :=
  takeMessages_abiding lasting.abiding batch

theorem collect_preserves (lasting : Link.Lasting I) (t : Transfer) : Preserves I (collect t) :=
  collect_abiding lasting.abiding t

end Lasting

end Exchange

end MidiStorage
