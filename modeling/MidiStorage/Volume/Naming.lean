import MidiStorage.DevicePath
import MidiStorage.Item
import MidiStorage.LocalPath

namespace MidiStorage

structure VolumeOptions where
  /-- Transfers are one exchange: progress jumps from nothing to all. -/
  singleOperation : Bool := false
  /-- Items live in numbered slots, and paths carry ids. -/
  slotStorage : Bool := false
  sortById : Bool := false
  sortByName : Bool := false
  deriving DecidableEq, Repr

namespace VolumeOptions

def ofBits (bits : Nat) : VolumeOptions where
  singleOperation := bits.testBit 0
  slotStorage := bits.testBit 1
  sortById := bits.testBit 2
  sortByName := bits.testBit 3

def bits (o : VolumeOptions) : Nat :=
  o.singleOperation.toNat + 2 * o.slotStorage.toNat + 4 * o.sortById.toNat
    + 8 * o.sortByName.toNat

end VolumeOptions

namespace Naming

/-- The device path for a local file, and the next free index afterwards. In slot storage a slot
keeps its id, and any other directory takes the next index. -/
def uploadPath (options : VolumeOptions) (dir file : String) (next : Nat) : String × Nat :=
  if !options.slotStorage then (DevicePath.join dir (DevicePath.basename file), next)
  else
    let stem := LocalPath.stem file
    match DevicePath.id dir with
    | .ok id => (DevicePath.parent dir ++ toString id ++ ":" ++ stem, next)
    | .error _ => (DevicePath.join dir (toString next ++ ":" ++ stem), next + 1)

/-- The local path for an item: its name, or its id if it has none, and the extension. -/
def downloadPath (dir : String) (item : Item) (extension : String) : String :=
  let name := if item.name.isEmpty then toString item.id else LocalPath.sanitize item.name
  LocalPath.join dir (name ++ "." ++ extension)

end Naming

end MidiStorage
