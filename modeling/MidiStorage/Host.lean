import MidiStorage.Bytes
import MidiStorage.Failure
import MidiStorage.Text.Split
import MidiStorage.Text.Utf8

namespace MidiStorage

inductive Node
  | directory
  | file (content : Bytes)
  | sink
  | full
  deriving DecidableEq, Repr

/-- The nodes under their absolute paths, given as components. -/
structure Host where
  nodes : List (List String × Node)
  deriving Repr

namespace Host

def noEntry : PortError := ⟨.notFound, "No such file or directory (os error 2)"⟩
def notDirectory : PortError := ⟨.other, "Not a directory (os error 20)"⟩
def isDirectory : PortError := ⟨.other, "Is a directory (os error 21)"⟩
def nameTooLong : PortError := ⟨.other, "File name too long (os error 36)"⟩
def noSpace : PortError := ⟨.other, "No space left on device (os error 28)"⟩
def nulInName : PortError := ⟨.other, "file name contained an unexpected NUL byte"⟩

def node? (h : Host) (place : List String) : Option Node :=
  if place.isEmpty then some .directory else h.nodes.lookup place

def sizeOf (cs : List Char) : Nat := (Text.Utf8.encode cs).length

def walk (h : Host) (place : List String) : List (List Char) → Except PortError (List String)
  | [] => .ok place
  | part :: rest =>
    match h.node? place with
    | none => .error noEntry
    | some .directory =>
      if 255 < sizeOf part then .error nameTooLong
      else if part = ['.'] then walk h place rest
      else if part = ['.', '.'] then walk h place.dropLast rest
      else walk h (place ++ [String.ofList part]) rest
    | some _ => .error notDirectory

def endsInSlash (path : String) : Bool := path.toList.getLast? = some '/'

/-- The components of an absolute path, unless no lookup can begin with it. -/
def components (path : String) : Except PortError (List (List Char)) :=
  let cs := path.toList
  if cs.contains '\x00' then .error nulInName
  else if cs.isEmpty then .error noEntry
  else if 4095 < sizeOf cs then .error nameTooLong
  else .ok ((Text.parts '/' cs).filter (· ≠ []))

def locate (h : Host) (path : String) : Except PortError (List String) := do
  h.walk [] (← components path)

/-- The place of the file that an absolute path names, which may have to be made. A path that ends
in a slash never names one: only the way to its last component is looked at, and then the component
is taken for a directory, whatever it is. -/
def locateFile (h : Host) (path : String) : Except PortError (List String) := do
  let parts ← components path
  if endsInSlash path then
    let _ ← h.walk [] (parts.dropLast ++ [['.']])
    throw isDirectory
  h.walk [] parts

def find (h : Host) (path : String) : Except PortError Node :=
  match h.locate path with
  | .error e => .error e
  | .ok place =>
    match h.node? place with
    | none => .error noEntry
    | some .directory => .ok .directory
    | some node => if endsInSlash path then .error notDirectory else .ok node

def openNode (h : Host) (path : String) : Except PortError Node :=
  match h.find path with
  | .ok .directory => .error isDirectory
  | result => result

def readFile (h : Host) (path : String) : Except PortError Bytes :=
  match h.find path with
  | .error e => .error e
  | .ok .directory => .error isDirectory
  | .ok .sink | .ok .full => .ok []
  | .ok (.file content) => .ok content

def writeFile (h : Host) (path : String) (content : Bytes) : Except PortError Host :=
  match h.locateFile path with
  | .error e => .error e
  | .ok place =>
    match h.node? place with
    | some .directory => .error isDirectory
    | some .sink => .ok h
    | some .full => if content.isEmpty then .ok h else .error noSpace
    | _ => .ok ⟨(place, .file content) :: h.nodes.filter (·.1 ≠ place)⟩

-- The way to a folder is looked up before a name in it is refused.
example : locateFile ⟨[(["b"], .sink)]⟩ "/a/" = .error isDirectory ∧
    locateFile ⟨[(["b"], .sink)]⟩ "/a/b/" = .error noEntry ∧
    locateFile ⟨[(["b"], .sink)]⟩ "/b/a/" = .error notDirectory := ⟨rfl, rfl, rfl⟩

end Host

def saveItem (h : Host) (path : String) (data : Bytes) : Except Failure Host :=
  (h.writeFile path data).mapError Failure.ofPortError

def loadItem (h : Host) (path : String) : Except Failure Bytes :=
  (h.readFile path).mapError Failure.ofPortError

end MidiStorage
