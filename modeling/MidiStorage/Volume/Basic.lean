import MidiStorage.Device
import MidiStorage.Operation
import MidiStorage.Volume.Naming

namespace MidiStorage

def unsupported {σ α : Type} (op : Operation) : Action σ α := throw (.notSupported op.name)

/-- One storage area of a device. Paths given to it are relative: `/` is its root and `/12:Lead` an
item. -/
structure Volume (P : Type) where
  /-- A bit that no other volume of the dialect has. -/
  id : Nat
  name : String
  label : String
  extension : String
  maxNameLength : Nat
  options : VolumeOptions
  capabilities : Capabilities
  readDir : String → Action (Device P) (List Item)
  download : String → Action (Device P) Bytes := fun _ => unsupported .download
  upload : String → Bytes → Action (Device P) Unit := fun _ _ => unsupported .upload
  rename : String → String → Action (Device P) Unit := fun _ _ => unsupported .rename
  move : String → String → Action (Device P) Unit := fun _ _ => unsupported .move
  copy : String → String → Action (Device P) Unit := fun _ _ => unsupported .copy
  swap : String → String → Action (Device P) Unit := fun _ _ => unsupported .swap
  delete : String → Action (Device P) Unit := fun _ => unsupported .delete
  mkdir : String → Action (Device P) Unit := fun _ => unsupported .mkdir
  clear : String → Action (Device P) Unit := fun _ => unsupported .clear
  slot : Device P → Item → Option String := fun _ _ => none
  /-- Where a local file is uploaded to, and the next free index afterwards. -/
  uploadPath : String → String → Nat → String × Nat := Naming.uploadPath options
  /-- Where the item that a path names is downloaded to: given a listing, a local directory and the
  path. -/
  downloadPath : Device P → List Item → String → String → Except Failure String :=
    fun _ items dir path => do
      return Naming.downloadPath dir (← Item.find items path) extension

namespace Volume

variable {P : Type}

def itemPath (v : Volume P) (dir : String) (item : Item) : String :=
  let dir := String.ofList (Text.trimEnd '/' dir.toList)
  let last := if v.options.slotStorage then toString item.id else item.name
  "/" ++ v.name ++ dir ++ "/" ++ last

end Volume

end MidiStorage
