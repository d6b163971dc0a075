namespace MidiStorage

inductive Failure
  | notFound (reason : String)
  | timedOut (limit : Nat)
  | cancelled
  | io (reason : String)
  | badMessage (reason : String)
  | notSupported (operation : String)
  | notADirectory (path : String)
  | invalidPath (path : String)
  deriving DecidableEq, Repr

namespace Failure

def message : Failure → String
  | .notFound reason => "Not found: " ++ reason
  | .timedOut limit => "Timed out after " ++ toString limit ++ " ms"
  | .cancelled => "Operation cancelled"
  | .io reason => "I/O error: " ++ reason
  | .badMessage reason => "Bad message: " ++ reason
  | .notSupported operation => "Operation not supported: " ++ operation
  | .notADirectory path => "Not a directory: " ++ path
  | .invalidPath path => "Invalid path: " ++ path

def userMessage : Failure → String
  | .notFound _ => "No supported device found. Check the cable and the MIDI port."
  | .timedOut _ =>
    "The device did not answer in time. It may be busy or switched off. Try again."
  | .cancelled => "The operation was cancelled."
  | .io reason => "Communication with the device failed: " ++ reason
  | .badMessage reason => "The data is not valid for this device: " ++ reason
  | .notSupported operation => "This device does not support '" ++ operation ++ "'."
  | .notADirectory path => path ++ " is not a folder."
  | .invalidPath path => path ++ " is not a valid location on this device."

def isNotFound : Failure → Bool
  | .notFound _ => true
  | _ => false

def isRetryable : Failure → Bool
  | .timedOut _ => true
  | _ => false

end Failure

inductive PortError.Kind
  | notFound
  | timedOut
  | wouldBlock
  | interrupted
  | brokenPipe
  | permissionDenied
  | other
  deriving DecidableEq, Repr

structure PortError where
  kind : PortError.Kind
  text : String
  deriving DecidableEq, Repr

/-- A fault outside an exchange: what is missing is not found, and a timeout has no limit of its
own. -/
def Failure.ofPortError (e : PortError) : Failure :=
  match e.kind with
  | .notFound => .notFound e.text
  | .timedOut => .timedOut 0
  | _ => .io e.text

end MidiStorage
