import MidiStorage.Rehearsal.Rig
import MidiStorage.Volume.Basic

namespace MidiStorage.Rehearsal

structure VolumeScript where
  name : String
  id : Nat
  options : VolumeOptions := {}
  capabilities : Capabilities := Capabilities.ofList []
  extension : String := ""
  items : List Item := []
  data : Bytes := []
  advances : List Float := []
  failures : List (Operation × Failure) := []
  cancelsIn : Option Operation := none

namespace VolumeScript

abbrev RigAction := Action (Device Rig)

def log (entry : LogEntry) : RigAction Unit := modify fun d =>
  let rig := d.link.port
  { d with link := { d.link with port := { rig with log := rig.log ++ [entry] } } }

/-- Logs an operation, then cancels and fails as the script says. -/
def act (s : VolumeScript) (op : Operation) (paths : List String) (data : Option Bytes := none) :
    RigAction Unit := do
  log (.call s.name op paths data)
  if s.cancelsIn = some op then Device.onLink (Link.modifyJob Job.cancel)
  match s.failures.lookup op with
  | some e => throw e
  | none => pure ()

def reportProgress (s : VolumeScript) : RigAction Unit :=
  s.advances.forM fun x => Device.onLink (Link.report (·.advance x))

def readDir (s : VolumeScript) (dir : String) : RigAction (List Item) := do
  s.act .list [dir]
  if dir ≠ "/" then throw (.notADirectory dir)
  pure s.items

def bareVolume (s : VolumeScript) : Volume Rig where
  id := s.id
  name := s.name
  label := "Table"
  extension := s.extension
  maxNameLength := 16
  options := s.options
  capabilities := s.capabilities
  readDir := s.readDir

def volume (s : VolumeScript) : Volume Rig :=
  { s.bareVolume with
    download := fun path => do
      s.reportProgress
      s.act .download [path]
      pure s.data
    upload := fun path data => do
      s.reportProgress
      s.act .upload [path] (some data)
    rename := fun source target => s.act .rename [source, target]
    move := fun source target => s.act .move [source, target]
    copy := fun source target => s.act .copy [source, target]
    swap := fun source target => s.act .swap [source, target]
    delete := fun path => s.act .delete [path]
    mkdir := fun path => s.act .mkdir [path]
    clear := fun path => s.act .clear [path] }

end VolumeScript

end MidiStorage.Rehearsal
