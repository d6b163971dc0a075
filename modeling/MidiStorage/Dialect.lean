import MidiStorage.Mount

namespace MidiStorage

structure Dialect (P : Type) where
  name : String
  /-- Probes the device and, on a match, fills in what is known. `Failure.notFound` means that
  another dialect may match. -/
  handshake : Action (Mount P) Unit
  storageStats : Nat → Action (Device P) StorageStats := fun _ =>
    throw (.notSupported "storage_stats")
  upgrade : Action (Exchange P) Unit := throw (.notSupported "upgrade_os")

/-- Matches any device, which it can only send raw messages to and receive them from. -/
def Dialect.fallback (P : Type) : Dialect P where
  name := "default"
  handshake := modify fun m =>
    let port := m.device.link.name
    let name := if port.isEmpty then "MIDI device" else "MIDI device " ++ port
    { m with device := m.device.setName name }.setVolumes []

structure Session (P : Type) where
  mount : Mount P
  dialect : Option (Dialect P) := none

namespace Session

variable {P : Type}

def onMount {α : Type} (a : Action (Mount P) α) : Action (Session P) α :=
  Action.within (·.mount) (fun s mount => { s with mount }) a

def storageStats (storage : Nat) : Action (Session P) StorageStats := do
  match (← get).dialect with
  | some dialect => onMount (Mount.onDevice (dialect.storageStats storage))
  | none => throw (.notSupported "storage_stats")

def upgrade (s : Session P) : Action (Exchange P) Unit :=
  match s.dialect with
  | some dialect => dialect.upgrade
  | none => throw (.notSupported "upgrade_os")

def close (s : Session P) : Link P := s.mount.device.link.close

end Session

end MidiStorage
