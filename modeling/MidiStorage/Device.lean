import MidiStorage.DeviceInfo
import MidiStorage.Eventide.Pedal
import MidiStorage.Exchange

namespace MidiStorage

inductive DialectState
  | text (s : String)
  | pedal (p : Eventide.Pedal)
  deriving DecidableEq, Repr

structure Device (P : Type) where
  link : Link P
  info : DeviceInfo := {}
  state : Option DialectState := none

namespace Device

variable {P : Type}

def onLink {α : Type} (a : Action (Link P) α) : Action (Device P) α :=
  Action.within (·.link) (fun d link => { d with link }) a

def setName (d : Device P) (name : String) : Device P := { d with info := { d.info with name } }

def setIdentity (d : Device P) (identity : Identity) : Device P :=
  { d with info := { d.info with identity } }

def setStorage (d : Device P) (storage : Nat) : Device P :=
  { d with info := { d.info with storage } }

def setState (d : Device P) (state : DialectState) : Device P := { d with state := some state }

def stateMissing (d : Device P) : Failure := .io (d.link.id ++ ": dialect state missing")

def text (d : Device P) : Except Failure String :=
  match d.state with
  | some (.text s) => .ok s
  | _ => .error d.stateMissing

def pedal (d : Device P) : Except Failure Eventide.Pedal :=
  match d.state with
  | some (.pedal p) => .ok p
  | _ => .error d.stateMissing

/-- Forgets what a handshake left behind, cached replies included. -/
def forget (d : Device P) : Device P where
  link := { d.link with cache := d.link.cache.clear }

end Device

end MidiStorage
