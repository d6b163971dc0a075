import MidiStorage.Link
import MidiStorage.Port.Node
import MidiStorage.Text.CharClass

namespace MidiStorage.PortId

def isNumber (cs : List Char) : Bool := !cs.isEmpty && cs.all Text.isDecimalDigit

def hardware? (id : List Char) : Option (List Char × List Char) :=
  match id with
  | 'h' :: 'w' :: ':' :: rest =>
    match Text.parts ',' rest with
    | [card, device] => if isNumber card && isNumber device then some (card, device) else none
    | [card, device, sub] =>
      if isNumber card && isNumber device && isNumber sub then some (card, device) else none
    | _ => none
  | _ => none

/-- The node of `hw:<card>,<device>[,<subdevice>]`, or of an absolute path. -/
def node? (id : String) : Option String :=
  match id.toList with
  | '/' :: _ => some id
  | cs => (hardware? cs).map fun (card, device) =>
    "/dev/snd/midiC" ++ String.ofList card ++ "D" ++ String.ofList device

end PortId

def Link.openPort (host : Host) (timing : Timing) (id : String) :
    Except Failure (Link NodePort) :=
  match PortId.node? id with
  | none => .error (.invalidPath id)
  | some path =>
    match host.openNode path with
    | .ok node => .ok (Link.ofPort id (NodePort.ofNode id node) timing)
    | .error e =>
      if e.kind = .notFound then .error (.notFound ("No MIDI device at " ++ path))
      else .error (.io (path ++ ": " ++ e.text))

end MidiStorage
