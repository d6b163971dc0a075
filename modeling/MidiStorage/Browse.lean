import MidiStorage.Mount

namespace MidiStorage.Mount

variable {P : Type}

def list (path : String) : Action (Mount P) (List Item) := do
  let m ← get
  if DevicePath.isRoot path then
    return m.volumes.map fun v => { id := v.id, name := v.name, kind := .directory }
  let (v, dir) ← Action.ofExcept (m.resolveFor .list path)
  onDevice (v.readDir dir)

def listingOptions (m : Mount P) (path : String) : Except Failure VolumeOptions :=
  if DevicePath.isRoot path then .ok { sortById := true }
  else (m.resolve path).map (·.1.options)

def listSorted (path : String) : Action (Mount P) (List Item) := do
  let options ← Action.ofExcept ((← get).listingOptions path)
  let items ← list path
  return if options.sortById then Item.sortById items
    else if options.sortByName then Item.sortByName items
    else items

/-- Runs one transfer of the job under way; a transfer that is one operation starts and completes
the job here. -/
def transfer {α : Type} (options : VolumeOptions) (a : Action (Device P) α) :
    Action (Mount P) α := do
  onLink (Link.check true)
  if options.singleOperation then onLink (Link.report (·.start 1))
  let result ← onDevice a
  onLink (Link.check true)
  if options.singleOperation then onLink (Link.report (·.advance 1.0))
  pure result

def download (path : String) : Action (Mount P) Bytes := do
  let (v, inner) ← Action.ofExcept ((← get).resolveFor .download path)
  transfer v.options (v.download inner)

def upload (path : String) (data : Bytes) : Action (Mount P) Unit := do
  let (v, inner) ← Action.ofExcept ((← get).resolveFor .upload path)
  transfer v.options (v.upload inner data)

def move (source target : String) : Action (Mount P) Unit := do
  let (v, source, target) ← Action.ofExcept ((← get).resolvePair .move source target)
  onDevice (v.move source target)

/-- What a volume is told about the new name: the path inside it, or the bare name as given. -/
def renameTarget (m : Mount P) (v : Volume P) (target : String) : Except Failure String :=
  match m.resolve target with
  | .ok (w, inner) => if w.id = v.id then .ok inner else .error (.invalidPath target)
  | .error _ => .ok target

/-- Where items can be moved a new name is a move to a full path; elsewhere the target is a path or
a bare name. -/
def rename (source target : String) : Action (Mount P) Unit := do
  let m ← get
  let (v, _) ← Action.ofExcept (m.resolve source)
  if v.capabilities.allows .move then move source target
  else
    let (v, source) ← Action.ofExcept (m.resolveFor .rename source)
    let target ← Action.ofExcept (m.renameTarget v target)
    onDevice (v.rename source target)

def copy (source target : String) : Action (Mount P) Unit := do
  let (v, source, target) ← Action.ofExcept ((← get).resolvePair .copy source target)
  onDevice (v.copy source target)

def swap (source target : String) : Action (Mount P) Unit := do
  let (v, source, target) ← Action.ofExcept ((← get).resolvePair .swap source target)
  onDevice (v.swap source target)

def delete (path : String) : Action (Mount P) Unit := do
  let (v, inner) ← Action.ofExcept ((← get).resolveFor .delete path)
  onDevice (v.delete inner)

def mkdir (path : String) : Action (Mount P) Unit := do
  let (v, inner) ← Action.ofExcept ((← get).resolveFor .mkdir path)
  onDevice (v.mkdir inner)

def clear (path : String) : Action (Mount P) Unit := do
  let (v, inner) ← Action.ofExcept ((← get).resolveFor .clear path)
  onDevice (v.clear inner)

def uploadPath (m : Mount P) (dir file : String) (next : Nat) :
    Except Failure (String × Nat) := do
  let (v, inner) ← m.resolve dir
  let (path, next) := v.uploadPath inner file next
  return ("/" ++ v.name ++ path, next)

def downloadPath (m : Mount P) (items : List Item) (dir path : String) :
    Except Failure String := do
  let (v, inner) ← m.resolve path
  v.downloadPath m.device items dir inner

end MidiStorage.Mount
