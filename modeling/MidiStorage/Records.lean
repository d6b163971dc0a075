import MidiStorage.DeviceInfo
import MidiStorage.Failure
import MidiStorage.Item
import MidiStorage.Json.Decode
import MidiStorage.Json.Reader
import MidiStorage.Operation

namespace MidiStorage

open Json (text record required missable)

def Failure.tag : Failure → String
  | .notFound _ => "notFound"
  | .timedOut _ => "timedOut"
  | .cancelled => "cancelled"
  | .io _ => "io"
  | .badMessage _ => "badMessage"
  | .notSupported _ => "notSupported"
  | .notADirectory _ => "notADirectory"
  | .invalidPath _ => "invalidPath"

def Failure.toJson (e : Failure) : Json :=
  let detail := match e with
    | .notFound reason | .io reason | .badMessage reason => [("message", text reason)]
    | .timedOut limit => [("timeout_ms", .nat limit)]
    | .cancelled => []
    | .notSupported operation => [("operation", text operation)]
    | .notADirectory path | .invalidPath path => [("path", text path)]
  record (("type", text e.tag) :: detail)

def ItemKind.name : ItemKind → String
  | .file => "file"
  | .directory => "directory"

def ItemKind.ofName? : String → Option ItemKind
  | "file" => some .file
  | "directory" => some .directory
  | _ => none

def ItemKind.toJson (k : ItemKind) : Json := text k.name

def ItemKind.ofJson? (j : Json) : Option ItemKind := j.name?.bind ItemKind.ofName?

def Operation.toJson (op : Operation) : Json := text op.name

/-- Records hold names only; the aliases of commands are not for them. -/
def Operation.ofJson? (j : Json) : Option Operation := do
  let name ← j.name?
  Operation.all.find? (·.name = name)

def Item.toJson (i : Item) : Json :=
  record [("id", .nat i.id), ("name", text i.name), ("kind", i.kind.toJson),
    ("size", match i.size with
      | some n => .nat n
      | none => .null)]

def Item.ofJson? (j : Json) : Option Item := do
  match ← j.fields? ["id", "name", "kind", "size"] with
  | [id, name, kind, size] =>
    return {
      id := ← required (Json.nat? 0x100000000) id
      name := ← required Json.string? name
      kind := ← required ItemKind.ofJson? kind
      size := ← missable (Json.nat? 0x10000000000000000) size }
  | _ => none

def bytesToJson (bytes : List UInt8) : Json := .array (bytes.map fun b => .nat b.toNat)

def Identity.toJson (i : Identity) : Json :=
  record [("company", bytesToJson i.company.toList), ("family", bytesToJson i.family.toList),
    ("model", bytesToJson i.model.toList), ("version", bytesToJson i.version.toList)]

def Identity.ofJson? (j : Json) : Option Identity := do
  match ← j.fields? ["company", "family", "model", "version"] with
  | [company, family, model, version] =>
    return {
      company := ← required (Json.bytes? 3) company
      family := ← required (Json.bytes? 2) family
      model := ← required (Json.bytes? 2) model
      version := ← required (Json.bytes? 4) version }
  | _ => none

def DeviceInfo.toJson (d : DeviceInfo) : Json :=
  record [("name", text d.name), ("midiInfo", d.identity.toJson), ("filesystems", .nat d.volumes),
    ("storage", .nat d.storage)]

def DeviceInfo.ofJson? (j : Json) : Option DeviceInfo := do
  match ← j.fields? ["name", "midiInfo", "filesystems", "storage"] with
  | [name, identity, volumes, storage] =>
    return {
      name := ← required Json.string? name
      identity := ← required Identity.ofJson? identity
      volumes := ← required (Json.nat? 0x100000000) volumes
      storage := ← required (Json.nat? 0x100000000) storage }
  | _ => none

def SystemPort.toJson (p : SystemPort) : Json := record [("id", text p.id), ("name", text p.name)]

def SystemPort.ofJson? (j : Json) : Option SystemPort := do
  match ← j.fields? ["id", "name"] with
  | [id, name] =>
    return { id := ← required Json.string? id, name := ← required Json.string? name }
  | _ => none

def StorageStats.toJson (s : StorageStats) : Json :=
  record [("name", text s.name), ("totalBytes", .nat s.total), ("freeBytes", .nat s.free)]

def StorageStats.ofJson? (j : Json) : Option StorageStats := do
  match ← j.fields? ["name", "totalBytes", "freeBytes"] with
  | [name, total, free] =>
    return {
      name := ← required Json.string? name
      total := ← required (Json.nat? 0x10000000000000000) total
      free := ← required (Json.nat? 0x10000000000000000) free }
  | _ => none

end MidiStorage
