import MidiStorage.Dialect
import MidiStorage.Rehearsal.Volume

namespace MidiStorage.Rehearsal

/-- A handshake is logged and does what the script says, in the order of its fields. -/
structure DialectScript where
  number : Nat
  name : String
  cancels : Bool := false
  request : Option Bytes := none
  deviceName : Option String := none
  storage : Option Nat := none
  text : Option String := none
  volumes : Option (List (Volume Rig)) := none
  failure : Option Failure := none
  stats : Option StorageStats := none
  upgrades : Bool := false

namespace DialectScript

def logMeeting (s : DialectScript) : Action (Mount Rig) Unit := do
  let m ← get
  let info := m.device.info
  let text := m.device.text.toOption
  Mount.onDevice
    (VolumeScript.log (.handshake s.number s.name info.name info.storage m.volumes.length text))

def ask (request : Bytes) : Action (Mount Rig) Unit := do
  let timeout := (← get).device.link.timing.guessTimeout
  let reply ← Mount.onLink (Link.transact request timeout)
  Mount.onDevice (VolumeScript.log (.reply reply))

def change {α : Type} (value : Option α) (f : Mount Rig → α → Mount Rig) :
    Action (Mount Rig) Unit :=
  match value with
  | some x => modify (f · x)
  | none => pure ()

def handshake (s : DialectScript) : Action (Mount Rig) Unit := do
  s.logMeeting
  if s.cancels then Mount.onLink (Link.modifyJob Job.cancel)
  s.request.forM ask
  change s.deviceName fun m name => { m with device := m.device.setName name }
  change s.storage fun m storage => { m with device := m.device.setStorage storage }
  change s.text fun m text => { m with device := m.device.setState (.text text) }
  change s.volumes Mount.setVolumes
  match s.failure with
  | some e => throw e
  | none => pure ()

def dialect (s : DialectScript) : Dialect Rig where
  name := s.name
  handshake := s.handshake
  storageStats n :=
    match s.stats with
    | some stats => pure { stats with name := stats.name ++ toString n }
    | none => throw (.notSupported "storage_stats")
  upgrade := if s.upgrades then Exchange.transmit else throw (.notSupported "upgrade_os")

end DialectScript

end MidiStorage.Rehearsal
