import MidiStorage.Failure
import MidiStorage.Text.Decimal
import MidiStorage.Text.Split

namespace MidiStorage.DevicePath

def idBound : Nat := 0x100000000

/-- The volume's name and the path inside it: `/preset/12:Lead` is `/12:Lead` in `preset`. -/
def split (path : String) : Except Failure (String × String) :=
  match path.toList with
  | '/' :: rest =>
    let (volume, inner) := Text.cut '/' rest
    if volume.isEmpty then .error (.invalidPath path)
    else .ok (String.ofList volume, String.ofList ('/' :: Text.trimEnd '/' (inner.getD [])))
  | _ => .error (.invalidPath path)

def basename (path : String) : String := String.ofList (Text.lastPart '/' path.toList)

/-- The id of the last component, and the name behind it, which is for the eye only. -/
def idName (path : String) : Except Failure (Nat × Option String) :=
  let (id, name) := Text.cut ':' (Text.lastPart '/' path.toList)
  match Text.Decimal.readBelow idBound id with
  | none => .error (.invalidPath path)
  | some id => .ok (id, (name.filter (!·.isEmpty)).map String.ofList)

def id (path : String) : Except Failure Nat := (idName path).map (·.1)

def join (dir name : String) : String :=
  if dir.toList.getLast? = some '/' then dir ++ name else dir ++ "/" ++ name

def isRoot (path : String) : Bool := path.toList.all (· = '/')

def parent (path : String) : String :=
  String.ofList (path.toList.take (path.toList.length - (Text.lastPart '/' path.toList).length))

end MidiStorage.DevicePath
