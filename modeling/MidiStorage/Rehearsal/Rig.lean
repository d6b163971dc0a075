import MidiStorage.Operation
import MidiStorage.Port.Scripted
import MidiStorage.Port.Virtual

namespace MidiStorage.Rehearsal

inductive LogEntry
  | handshake (dialect : Nat) (name device : String) (storage volumes : Nat) (text : Option String)
  | reply (bytes : Bytes)
  | call (volume : String) (op : Operation) (paths : List String) (data : Option Bytes)
  deriving DecidableEq, Repr

inductive RigPort
  | virtual (p : VirtualPort)
  | scripted (p : ScriptedPort)

/-- A port without hardware, and a log of what rehearsed dialects and volumes were asked to do. -/
structure Rig where
  port : RigPort
  log : List LogEntry := []

namespace Rig

def lift {Q α : Type} (r : Rig) (wrap : Q → RigPort) (t : Turn Q α) : Turn Rig α where
  result := t.result
  port := { r with port := wrap t.port }
  cancels := t.cancels

instance : Port Rig where
  name r := match r.port with
    | .virtual p => p.name
    | .scripted p => p.name
  read r := match r.port with
    | .virtual p => r.lift .virtual (Port.read p)
    | .scripted p => r.lift .scripted (Port.read p)
  write r bytes := match r.port with
    | .virtual p => r.lift .virtual (Port.write p bytes)
    | .scripted p => r.lift .scripted (Port.write p bytes)
  readsLeft r := match r.port with
    | .virtual p => Port.readsLeft p
    | .scripted p => Port.readsLeft p
  interruptsLeft r := match r.port with
    | .virtual p => Port.interruptsLeft p
    | .scripted p => Port.interruptsLeft p

instance : LawfulPort Rig where
  read_size r bytes h := by
    obtain ⟨port, log⟩ := r
    cases port with
    | virtual p => exact LawfulPort.read_size p bytes h
    | scripted p => exact LawfulPort.read_size p bytes h
  readsLeft_le r := by
    obtain ⟨port, log⟩ := r
    cases port with
    | virtual p => exact LawfulPort.readsLeft_le p
    | scripted p => exact LawfulPort.readsLeft_le p
  readsLeft_lt r h := by
    obtain ⟨port, log⟩ := r
    cases port with
    | virtual p => exact LawfulPort.readsLeft_lt p h
    | scripted p => exact LawfulPort.readsLeft_lt p h
  write_size r bytes n h := by
    obtain ⟨port, log⟩ := r
    cases port with
    | virtual p => exact LawfulPort.write_size p bytes n h
    | scripted p => exact LawfulPort.write_size p bytes n h
  interruptsLeft_le r bytes := by
    obtain ⟨port, log⟩ := r
    cases port with
    | virtual p => exact LawfulPort.interruptsLeft_le p bytes
    | scripted p => exact LawfulPort.interruptsLeft_le p bytes
  interruptsLeft_lt r bytes e h hi := by
    obtain ⟨port, log⟩ := r
    cases port with
    | virtual p => exact LawfulPort.interruptsLeft_lt p bytes e h hi
    | scripted p => exact LawfulPort.interruptsLeft_lt p bytes e h hi

def pending (r : Rig) : Nat :=
  match r.port with
  | .virtual p => p.pending.length
  | .scripted p => p.reads.length

def handshakes (r : Rig) (dialect : Nat) : Nat :=
  r.log.countP fun
    | .handshake n .. => n == dialect
    | _ => false

end Rig

end MidiStorage.Rehearsal
