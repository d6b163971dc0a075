import MidiStorage.Framer
import MidiStorage.Port.Basic
import MidiStorage.ReplyCache
import MidiStorage.Run
import MidiStorage.Timing

namespace MidiStorage

inductive LinkEvent
  | accepted (bytes : Bytes)
  | delivered (bytes : Bytes)
  | paused (duration : Nat)
  deriving DecidableEq, Repr

/-- One open port with its framer, its reply cache and the job that it serves. The journal lists
what crossed the port and which pauses were kept, oldest first. -/
structure Link (P : Type) where
  id : String
  name : String
  timing : Timing
  port : P
  framer : Framer := {}
  cache : ReplyCache := {}
  run : Run := {}
  journal : List LinkEvent := []
  closed : Bool := false

namespace Link

variable {P : Type}

def ofPort [Port P] (id : String) (port : P) (timing : Timing) : Link P :=
  { id, name := Port.name port, timing, port }

def close (l : Link P) : Link P := { l with closed := true }

def accepted (l : Link P) : Bytes :=
  l.journal.flatMap fun
    | .accepted bytes => bytes
    | _ => []

def delivered (l : Link P) : Bytes :=
  l.journal.flatMap fun
    | .delivered bytes => bytes
    | _ => []

def onRun {α : Type} (a : Action Run α) : Action (Link P) α :=
  Action.within (·.run) (fun l run => { l with run }) a

def check (watched : Bool) : Action (Link P) Unit := onRun (Run.check watched)

def now : Action (Link P) Nat := onRun Run.now

def sleep (duration : Nat) : Action (Link P) Unit := onRun (Run.sleep duration)

def modifyJob (f : Job Float → Job Float) : Action (Link P) Unit :=
  modify fun l => { l with run := { l.run with job := f l.run.job } }

/-- Changes the progress of the job, which its listener is told. -/
def report (change : Job Float → Job Float) : Action (Link P) Unit :=
  modify fun l => { l with run := l.run.report change }

def pause (watched : Bool) (duration : Nat) : Action (Link P) Unit := do
  onRun (Run.pause watched duration (← get).timing.pollInterval)
  modify fun l => { l with journal := l.journal ++ [.paused duration] }

def afterTurn (l : Link P) (port : P) (cancels : Bool) (event : Option LinkEvent) : Link P :=
  { l with
    port
    run := if cancels then { l.run with job := l.run.job.cancel } else l.run
    journal := l.journal ++ event.toList }

def readOnce [Port P] : Action (Link P) (Except PortError Bytes) := fun l =>
  let turn := Port.read l.port
  let event := match turn.result with
    | .ok (b :: bytes) => some (.delivered (b :: bytes))
    | _ => none
  .ok turn.result (l.afterTurn turn.port turn.cancels event)

def writeOnce [Port P] (bytes : Bytes) : Action (Link P) (Except PortError Nat) := fun l =>
  let turn := Port.write l.port bytes
  let event := match turn.result with
    | .ok (n + 1) => some (.accepted (bytes.take (n + 1)))
    | _ => none
  .ok turn.result (l.afterTurn turn.port turn.cancels event)

def stalled : Action (Link P) Unit := do
  throw (.io ((← get).id ++ ": port accepted no data"))

/-- Writes until nothing is left; an interrupted write is tried again. -/
def sendRounds [Port P] : Nat → Bytes → Action (Link P) Unit
  | _, [] => pure ()
  | 0, _ :: _ => stalled
  | rounds + 1, b :: rest => do
    match ← writeOnce (b :: rest) with
    | .ok 0 => stalled
    | .ok n => sendRounds rounds ((b :: rest).drop n)
    | .error e =>
      if e.kind = .interrupted then sendRounds rounds (b :: rest) else throw (.io e.text)

def send [Port P] (bytes : Bytes) : Action (Link P) Nat := do
  sendRounds (bytes.length + Port.interruptsLeft (← get).port) bytes
  pure bytes.length

/-- Reads until the port has nothing more. A fault ends the poll, and the bytes it brought so far
are not handed on. -/
def readRounds [Port P] : Nat → Bytes → Action (Link P) Bytes
  | 0, got => pure got
  | rounds + 1, got => do
    match ← readOnce with
    | .ok [] => pure got
    | .ok bytes => readRounds rounds (got ++ bytes)
    | .error e =>
      if e.kind = .wouldBlock then pure got
      else if e.kind = .interrupted then readRounds rounds got
      else throw (.io e.text)

def poll [Port P] : Action (Link P) Bytes := do
  readRounds (Port.readsLeft (← get).port + 1) []

def pollFramer [Port P] : Action (Link P) Unit := do
  let bytes ← poll
  modify fun l => { l with framer := l.framer.push bytes }

def receiveRounds [Port P] (timeout : Nat) (watched : Bool) (start : Nat) :
    Nat → Action (Link P) Bytes
  | 0 => throw (.timedOut timeout)
  | rounds + 1 => do
    check watched
    let bytes ← poll
    if !bytes.isEmpty then pure bytes
    else
      let elapsed := (← now) - start
      if timeout ≤ elapsed then throw (.timedOut timeout)
      sleep (min (← get).timing.pollInterval (timeout - elapsed))
      receiveRounds timeout watched start rounds

def receive [Port P] (timeout : Nat) (watched : Bool) : Action (Link P) Bytes := do
  let start ← now
  receiveRounds timeout watched start ((← get).run.clock.rounds timeout)

def drainRounds [Port P] (start : Nat) : Nat → (quietSince : Nat) → Action (Link P) Unit
  | 0, _ => pure ()
  | rounds + 1, quietSince => do
    let timing := (← get).timing
    if timing.restTime ≤ (← now) - quietSince then pure ()
    else if timing.dumpTimeout ≤ (← now) - start then pure ()
    else
      match ← Action.outcome poll with
      | .error _ => pure ()
      | .ok [] =>
        sleep (min timing.pollInterval timing.restTime)
        drainRounds start rounds quietSince
      | .ok _ => drainRounds start rounds (← now)

/-- Discards the input heard so far. Reads until the port was quiet for the rest time, but no longer
than the dump timeout, so a device that never stops talking cannot hold the link. -/
def drain [Port P] : Action (Link P) Unit := do
  modify fun l => { l with framer := l.framer.reset }
  let start ← now
  let quietSince ← now
  let l ← get
  drainRounds start (l.run.clock.rounds l.timing.dumpTimeout + Port.readsLeft l.port) quietSince

def nextMessage : Action (Link P) (Option Bytes) := modifyGet fun l =>
  let (message, framer) := l.framer.pop
  (message, { l with framer })

def allMessages : Action (Link P) (List Bytes) := modifyGet fun l =>
  let (messages, framer) := l.framer.popAll
  (messages, { l with framer })

def modifyCache (f : ReplyCache → ReplyCache) : Action (Link P) Unit :=
  modify fun l => { l with cache := f l.cache }

def programChange [Port P] (channel program : UInt8) : Action (Link P) Unit := do
  let _ ← send [0xC0 ||| (channel &&& 0x0F), program &&& 0x7F]

end Link

end MidiStorage
