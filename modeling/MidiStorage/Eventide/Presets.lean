import MidiStorage.Device
import MidiStorage.DevicePath
import MidiStorage.Item

namespace MidiStorage.Eventide.Presets

variable {P : Type}

def bulkTimeout : Nat := 20000

def setPedal (p : Pedal) : Action (Device P) Unit := modify fun d => d.setState (.pedal p)

def pedal : Action (Device P) Pedal := do Action.ofExcept (← get).pedal

/-- Reads all presets from the pedal and keeps them, as there is no way to read one without loading
it. Reading them again first gives the pedal's relays time to settle. -/
def fetch [Port P] (p : Pedal) (watched : Bool) : Action (Device P) (List Preset) := do
  if p.bank.isSome then
    Device.onLink (Link.pause watched (← get).link.timing.settlePause)
  -- The answer changes with every write, so it is never taken from the cache
  let request : Transfer :=
    { raw := bulkRequest, timeout := bulkTimeout, cacheable := false, watched }
  let dump ← Device.onLink (Link.withTransfer request Exchange.perform)
  let bank := Preset.ofDump dump
  setPedal { p with bank := some bank }
  pure bank

def read [Port P] (p : Pedal) (path : String) (watched : Bool) : Action (Device P) Preset := do
  let id ← Action.ofExcept (DevicePath.id path)
  let index ← Action.ofExcept (p.index id path)
  let bank ← match p.bank with
    | some bank => pure bank
    | none => fetch p watched
  match bank[index]? with
  | some preset => pure preset
  | none => throw (.invalidPath path)

/-- Listens for the answer that a pedal never gives to a dump. -/
def listen [Port P] (watched : Bool) : Action (Link P) Unit := do
  let timeout := (← get).timing.silenceWindow
  match ← Action.outcome (Link.withTransfer { raw := [], timeout, watched } Exchange.receive) with
  | .error (.timedOut _) => pure ()
  | .error e => throw e
  | .ok _ => throw (.io "unexpected reply to preset upload")

def store [Port P] (path : String) (data : Bytes) (watched : Bool) : Action (Device P) Unit := do
  let p ← pedal
  let id ← Action.ofExcept (DevicePath.id path)
  let index ← Action.ofExcept (p.index id path)
  let message ← Action.ofExcept (retarget data p.deviceId id)
  Device.onLink (Link.transmitAll message watched)
  Device.onLink (listen watched)
  setPedal (p.refresh index message)
  Device.onLink (Link.check watched)

/-- The items that a bank is listed as. Ids are counted without a bound: one at or beyond
`DevicePath.idBound` stands for a count that has overflowed. -/
def items (p : Pedal) (bank : List Preset) : List Item :=
  (bank.take p.count).mapIdx fun i preset => { id := p.first + i, name := preset.name }

def list [Port P] (dir : String) : Action (Device P) (List Item) := do
  if dir ≠ "/" then throw (.notADirectory dir)
  let p ← pedal
  let bank ← fetch p false
  pure (items p bank)

def download [Port P] (path : String) : Action (Device P) Bytes := do
  Device.onLink (Link.report (·.start 1))
  let p ← pedal
  let preset ← read p path true
  Device.onLink (Link.check true)
  Device.onLink (Link.report (·.advance 1.0))
  pure preset.toMessage

def upload [Port P] (path : String) (data : Bytes) : Action (Device P) Unit := do
  Device.onLink (Link.report (·.start 1))
  store path data true
  Device.onLink (Link.report (·.advance 1.0))

def maxNameLength : Nat := 16

/-- The new name that a rename asks for: behind the id of a path, or the bare text. -/
def newName (target : String) : String :=
  match DevicePath.idName target with
  | .ok (_, some name) => name
  | _ => String.ofList (target.toList.dropWhile (· = '/'))

def rename [Port P] (source target : String) : Action (Device P) Unit := do
  let id ← Action.ofExcept (DevicePath.id source)
  let name := (newName target).toList
  -- A line break would split the record
  if name.isEmpty || name.any Text.isControl then throw (.invalidPath target)
  let p ← pedal
  let preset ← read p source false
  let renamed := { preset with name := String.ofList (name.take maxNameLength) }
  store ("/" ++ toString id) renamed.toMessage false

def slotLabel (kind : PedalKind) (id : Nat) : String :=
  match kind with
  | .factor => "[" ++ toString (id / 2 + 1) ++ ":" ++ toString (id % 2 + 1) ++ "]"
  | .h9 => toString (id + 1)

end MidiStorage.Eventide.Presets
