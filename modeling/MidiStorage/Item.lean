import MidiStorage.Failure
import MidiStorage.DevicePath

namespace MidiStorage

inductive ItemKind
  | file
  | directory
  deriving DecidableEq, Repr

structure Item where
  id : Nat
  name : String
  kind : ItemKind := .file
  size : Option Nat := none
  deriving DecidableEq, Repr

namespace Item

def find (items : List Item) (path : String) : Except Failure Item :=
  match DevicePath.id path with
  | .error e => .error e
  | .ok id =>
    match items.find? (·.id = id) with
    | some item => .ok item
    | none => .error (.invalidPath path)

def sortById (items : List Item) : List Item := items.mergeSort fun a b => a.id ≤ b.id

def sortByName (items : List Item) : List Item := items.mergeSort fun a b => a.name ≤ b.name

end Item

end MidiStorage
