import MidiStorage.Volume.Basic

namespace MidiStorage

structure Mount (P : Type) where
  device : Device P
  volumes : List (Volume P) := []

namespace Mount

variable {P : Type}

def ofLink (link : Link P) : Mount P := { device := { link } }

def onDevice {α : Type} (a : Action (Device P) α) : Action (Mount P) α :=
  Action.within (·.device) (fun m device => { m with device }) a

def onLink {α : Type} (a : Action (Link P) α) : Action (Mount P) α := onDevice (Device.onLink a)

def setVolumes (m : Mount P) (volumes : List (Volume P)) : Mount P :=
  let bits := volumes.foldl (fun bits v => bits ||| v.id) 0
  { device := { m.device with info := { m.device.info with volumes := bits } }, volumes }

def forget (m : Mount P) : Mount P := { device := m.device.forget }

def volumeById? (m : Mount P) (id : Nat) : Option (Volume P) := m.volumes.find? (·.id = id)

def volumeNamed? (m : Mount P) (name : String) : Option (Volume P) :=
  m.volumes.find? (·.name = name)

def resolve (m : Mount P) (path : String) : Except Failure (Volume P × String) :=
  match DevicePath.split path with
  | .error e => .error e
  | .ok (name, inner) =>
    match m.volumeNamed? name with
    | none => .error (.invalidPath path)
    | some v => .ok (v, inner)

def resolveFor (m : Mount P) (op : Operation) (path : String) :
    Except Failure (Volume P × String) :=
  match m.resolve path with
  | .error e => .error e
  | .ok (v, inner) =>
    if v.capabilities.allows op then .ok (v, inner) else .error (.notSupported op.name)

/-- A source and a destination on one volume. -/
def resolvePair (m : Mount P) (op : Operation) (source target : String) :
    Except Failure (Volume P × String × String) :=
  match m.resolveFor op source with
  | .error e => .error e
  | .ok (v, inner) =>
    match m.resolve target with
    | .error e => .error e
    | .ok (w, targetInner) =>
      if w.id = v.id then .ok (v, inner, targetInner) else .error (.invalidPath target)

/-- For instance `Eventide H9 5.1.0.7; filesystems=preset`. -/
def summary (m : Mount P) : String :=
  m.device.info.name ++ "; filesystems=" ++ ",".intercalate (m.volumes.map (·.name))

end Mount

end MidiStorage
