import MidiStorage.Action
import MidiStorage.Job

namespace MidiStorage

structure Tick where
  passed : Nat
  cancels : Bool := false
  deriving DecidableEq, Repr

/-- A clock counts microseconds and shows whole milliseconds. Every non-decreasing clock is some
script; past its end time passes by sleeping alone. -/
structure Clock where
  micros : Nat := 0
  script : List Tick := []
  deriving DecidableEq, Repr

namespace Clock

def time (c : Clock) : Nat := c.micros / 1000

/-- A sleep ends no earlier than asked for, and one of no length still takes a microsecond, unless
the script decides. -/
def sleep (c : Clock) (duration : Nat) : Clock :=
  match c.script with
  | [] => { c with micros := c.micros + max (1000 * duration) 1 }
  | _ :: _ => c

def advance (c : Clock) (passed : Nat) : Clock := { c with micros := c.micros + 1000 * passed }

def sleeps (limit : Nat) : Nat := 1000 * limit + 1

/-- More rounds than a wait can take that reads the clock in each and sleeps between them. -/
def rounds (c : Clock) (limit : Nat) : Nat := c.script.length + sleeps limit

example : (sleep {} 3).time = 3 ∧ (sleep {} 0).time = 0 := by decide
example : (sleep ⟨999, []⟩ 0).time = 1 ∧ (sleep ⟨999, []⟩ 2).time = 2 := by decide

end Clock

/-- The job under way and the clock it runs by. The job may be cancelled at any time, by its
listener or by anyone else: what matters is before which look, so the moments are the calls of the
port, the readings of the clock and the values told. -/
structure Run where
  clock : Clock := {}
  job : Job Float := Job.create true
  /-- Whether the job gets cancelled while each coming value is told. -/
  hearings : List Bool := []

namespace Run

/-- The job gets cancelled while this one of the coming values is told. -/
def interrupts (r : Run) (value : Nat) : Bool := r.hearings.getD value false

def report (r : Run) (change : Job Float → Job Float) : Run :=
  { r with
    job := if r.interrupts 0 then (change r.job).cancel else change r.job
    hearings := r.hearings.tail }

def now : Action Run Nat := fun r =>
  match r.clock.script with
  | [] => .ok r.clock.time r
  | tick :: script =>
    let clock := { r.clock.advance tick.passed with script }
    .ok clock.time { r with clock, job := if tick.cancels then r.job.cancel else r.job }

def sleep (duration : Nat) : Action Run Unit :=
  modify fun r => { r with clock := r.clock.sleep duration }

/-- Fails once the job is cancelled. Work that is not `watched` belongs to no job and goes on. -/
def check (watched : Bool) : Action Run Unit := do
  if watched && !(← get).job.active then throw .cancelled

def pauseRounds (watched : Bool) (duration poll start : Nat) : Nat → Action Run Unit
  | 0 => pure ()
  | rounds + 1 => do
    check watched
    let elapsed := (← now) - start
    if duration ≤ elapsed then pure ()
    else
      sleep (min poll (duration - elapsed))
      pauseRounds watched duration poll start rounds

/-- Waits for `duration`, looking for cancellation every `poll`. -/
def pause (watched : Bool) (duration poll : Nat) : Action Run Unit := do
  let start ← now
  pauseRounds watched duration poll start ((← get).clock.rounds duration)

end Run

end MidiStorage
