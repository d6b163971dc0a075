import MidiStorage.Dialect
import MidiStorage.Eventide.Presets

namespace MidiStorage.Eventide

variable {P : Type}

def presetVolume (P : Type) [Port P] : Volume P where
  id := 1
  name := "preset"
  label := "Presets"
  extension := "syx"
  maxNameLength := Presets.maxNameLength
  options := { singleOperation := true, slotStorage := true, sortById := true }
  capabilities := Capabilities.ofList [.list, .download, .upload, .rename]
  readDir := Presets.list
  download := Presets.download
  upload := Presets.upload
  rename := Presets.rename
  slot d item :=
    match d.pedal with
    | .ok p => some (Presets.slotLabel p.kind item.id)
    | .error _ => none
  downloadPath d items dir path := do
    let p ← d.pedal
    let item ← Item.find items path
    return LocalPath.join dir (p.kind.label ++ " " ++ LocalPath.sanitize item.name ++ ".syx")

def companyCode : Vector UInt8 3 := #v[0x1C, 0, 0]
def familyCode : Vector UInt8 2 := #v[0, 6]
def modelCode : Vector UInt8 2 := #v[0x11, 0]

def minIdentityLength : Nat := 16

def pedalIdentity (reply : Bytes) : Except Failure Identity :=
  if reply.length < minIdentityLength then .error (.notFound "identity reply too short")
  else match Identity.ofReply reply with
    | .error e => .error (.notFound e.message)
    | .ok identity =>
      if identity.company = companyCode ∧ identity.family = familyCode
          ∧ identity.model = modelCode then .ok identity
      else .error (.notFound ("not an Eventide pedal: " ++ identity.display))

/-- Silence means that there is no pedal. -/
def inquire [Port P] : Action (Link P) Bytes := do
  let timeout := (← get).timing.guessTimeout
  match ← Action.outcome (Link.transact identityRequest timeout) with
  | .ok reply => pure reply
  | .error (.timedOut _) => throw (.notFound "no identity reply")
  | .error e => throw e

/-- The answer to a query, which is longer than the header of every message. -/
def ask [Port P] (type : QueryType) (key : String) : Action (Link P) Bytes := do
  let timeout := (← get).timing.replyTimeout
  let reply ← Link.transact (query type key) timeout
  if reply.length ≤ header.length then throw (.badMessage ("short reply to key " ++ key))
  pure reply

def kindOfSwitches (switches : List Char) : Except Failure PedalKind :=
  let size := (Text.Utf8.encode switches).length
  match if 2 ≤ size then PedalKind.ofSwitchCount? (size - 2) else none with
  | some kind => .ok kind
  | none => .error (.notFound ("illegal switches " ++ String.ofList switches))

def identify [Port P] : Action (Link P) (Identity × Pedal) := do
  Link.drain
  let identity ← Action.ofExcept (pedalIdentity (← inquire))
  let version ← ask .object keyVersion
  let switches ← ask .value keySwitches
  let kind ← Action.ofExcept (kindOfSwitches (textAt switches textOffset))
  let low ← ask .object keyLowBank
  let high ← ask .object keyHighBank
  let (first, count) ←
    Action.ofExcept (slotRange kind (numberAt low numberOffset) (numberAt high numberOffset))
  pure (identity, { deviceId := version.getD deviceOffset 0, kind, first, count })

def handshake [Port P] : Action (Mount P) Unit := do
  let (identity, pedal) ← Mount.onLink identify
  modify fun m =>
    let named := (m.device.setIdentity identity).setName
      (pedal.kind.label ++ " " ++ identity.versionString)
    let mounted := { m with device := named }.setVolumes [presetVolume P]
    { mounted with device := mounted.device.setState (.pedal pedal) }

def dialect (P : Type) [Port P] : Dialect P where
  name := "efactor"
  handshake := handshake

end MidiStorage.Eventide
