import MidiStorage.Text.Split

namespace MidiStorage.LocalPath

/-- What stands between slashes; nothing and `.` do not count. -/
def components (path : String) : List (List Char) :=
  (Text.parts '/' path.toList).filter fun part => part ≠ [] ∧ part ≠ ['.']

def fileName (path : String) : Option (List Char) :=
  (components path).getLast?.filter (· ≠ ['.', '.'])

/-- A file name without its extension. A dot at the front starts no extension. -/
def stemOf (name : List Char) : List Char :=
  let extension := Text.lastPart '.' name
  let stem := name.take (name.length - extension.length - 1)
  if extension.length = name.length ∨ stem.isEmpty then name else stem

def stem (path : String) : String :=
  match fileName path with
  | some name => String.ofList (stemOf name)
  | none => path

/-- A path inside a directory. An absolute path takes the directory's place. -/
def join (dir path : String) : String :=
  match path.toList with
  | '/' :: _ => path
  | _ =>
    match dir.toList.getLast? with
    | none | some '/' => dir ++ path
    | some _ => dir ++ "/" ++ path

def sanitize (name : String) : String :=
  String.ofList (name.toList.map fun c => if c = '/' ∨ c = '\x00' then '_' else c)

example : stem "/a/b/kick.tar.gz" = "kick.tar" ∧ stem ".hidden" = ".hidden" ∧ stem ".." = ".." := by
  decide

end MidiStorage.LocalPath
