import MidiStorage.Link

namespace MidiStorage

inductive Phase
  | waiting
  | sending
  | receiving
  | finished
  deriving DecidableEq, Repr

structure Transfer where
  /-- The request until the exchange runs, what was received afterwards. -/
  raw : Bytes
  timeout : Nat
  /-- Collect messages until the device goes idle, instead of a single one. -/
  batch : Bool := false
  cacheable : Bool := true
  /-- The job under way can cancel the transfer. -/
  watched : Bool := false
  phase : Phase := .waiting
  deriving DecidableEq, Repr

def Transfer.sliceSize : Nat := 512

structure Exchange (P : Type) where
  link : Link P
  transfer : Transfer

namespace Exchange

variable {P : Type}

def onLink {α : Type} (a : Action (Link P) α) : Action (Exchange P) α :=
  Action.within (·.link) (fun x link => { x with link }) a

def enter (phase : Phase) : Action (Exchange P) Unit :=
  modify fun x => { x with transfer := { x.transfer with phase } }

def sendSlices [Port P] (watched : Bool) : List Bytes → Action (Link P) Unit
  | [] => pure ()
  | slice :: rest => do
    Link.check watched
    let _ ← Link.send slice
    sendSlices watched rest

def transmit [Port P] : Action (Exchange P) Unit := do
  enter .sending
  let t := (← get).transfer
  match ← onLink (Action.outcome (sendSlices t.watched (t.raw.slices Transfer.sliceSize))) with
  | .ok () => enter .waiting
  | .error e => enter .finished; throw e

def takeMessages (batch : Bool) : Action (Link P) (List Bytes) := do
  if batch then Link.allMessages else pure (← Link.nextMessage).toList

/-- The end of a wait by silence: a batch is complete, nothing at all is a timeout. -/
def settle (timeout : Nat) (got : List Bytes) : Action (Link P) Bytes :=
  if got.isEmpty then throw (.timedOut timeout) else pure got.flatten

/-- `since` is the start of the wait until the first message, and then the time of the last one. -/
def collectRounds [Port P] (t : Transfer) :
    Nat → (since : Nat) → (got : List Bytes) → Action (Link P) Bytes
  | 0, _, got => settle t.timeout got
  | rounds + 1, since, got => do
    Link.check t.watched
    Link.pollFramer
    let fresh ← takeMessages t.batch
    if !t.batch && !fresh.isEmpty then pure fresh.flatten
    else
      let since ← if fresh.isEmpty then pure since else Link.now
      let got := got ++ fresh
      let timing := (← get).timing
      let limit := if got.isEmpty then t.timeout else timing.idleTimeout
      let elapsed := (← Link.now) - since
      if limit ≤ elapsed then settle t.timeout got
      else
        Link.sleep (min timing.pollInterval (limit - elapsed))
        collectRounds t rounds since got

def collect [Port P] (t : Transfer) : Action (Link P) Bytes := do
  let start ← Link.now
  let l ← get
  let rounds := l.run.clock.rounds 0
    + (Port.readsLeft l.port + 2) * Clock.sleeps (max t.timeout l.timing.idleTimeout)
  collectRounds t rounds start []

/-- Receives into the transfer; a failure leaves its bytes alone. -/
def receive [Port P] : Action (Exchange P) Unit := do
  enter .receiving
  let t := (← get).transfer
  let result ← onLink (Action.outcome (collect t))
  enter .finished
  match result with
  | .ok bytes => modify fun x => { x with transfer := { x.transfer with raw := bytes } }
  | .error e => throw e

/-- Sends the request and waits for the reply. With the cache enabled a request seen before is
answered from memory. -/
def perform [Port P] : Action (Exchange P) Unit := do
  let x ← get
  let request := x.transfer.raw
  let cacheable := x.transfer.cacheable && !request.isEmpty
  match if cacheable then x.link.cache.get? request else none with
  | some reply =>
    modify fun x => { x with transfer := { x.transfer with raw := reply, phase := .finished } }
  | none =>
    transmit
    receive
    if cacheable then
      let reply := (← get).transfer.raw
      onLink (Link.modifyCache (·.insert request reply))

end Exchange

namespace Link

variable {P : Type}

def withTransfer (t : Transfer) (a : Action (Exchange P) Unit) : Action (Link P) Bytes := fun l =>
  match a ⟨l, t⟩ with
  | .ok _ x => .ok x.transfer.raw x.link
  | .error e x => .error e x.link

def transact [Port P] (request : Bytes) (timeout : Nat) (watched : Bool := false) :
    Action (Link P) Bytes :=
  withTransfer { raw := request, timeout, watched } Exchange.perform

/-- Sends without waiting for a reply. What is sent may change the device, so the remembered replies
are forgotten even when the write fails halfway. -/
def transmitAll [Port P] (message : Bytes) (watched : Bool) : Action (Link P) Unit := do
  let timeout := (← get).timing.replyTimeout
  let result ← Action.outcome (withTransfer { raw := message, timeout, watched } Exchange.transmit)
  modifyCache ReplyCache.clear
  let _ ← Action.ofExcept result

def post [Port P] (message : Bytes) : Action (Link P) Unit := transmitAll message false

def sendSysex [Port P] (bytes : Bytes) : Action (Link P) Unit := do
  report (·.start 1)
  transmitAll bytes true
  report (·.advance 1.0)

def receiveSysex [Port P] : Action (Link P) Bytes := do
  report (·.start 1)
  let timeout := (← get).timing.dumpTimeout
  let bytes ←
    withTransfer { raw := [], timeout, batch := true, watched := true } Exchange.receive
  report (·.advance 1.0)
  pure bytes

end Link

end MidiStorage
