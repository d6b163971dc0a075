import MidiStorage.Eventide.Message
import MidiStorage.Failure
import MidiStorage.Text.Split

namespace MidiStorage.Eventide

structure Preset where
  /-- The line of the tag and the algorithm, and five lines of parameters. -/
  settings : Vector String 6
  name : String
  deriving DecidableEq, Repr

namespace Preset

def lines (p : Preset) : List String := p.settings.toList ++ [p.name]

/-- Presets from their lines; what remains of an incomplete one is dropped. -/
def ofLines : List String → List Preset
  | a :: b :: c :: d :: e :: f :: name :: rest => ⟨#v[a, b, c, d, e, f], name⟩ :: ofLines rest
  | _ => []

def ofDump (message : Bytes) : List Preset :=
  ofLines ((Text.lines (textAt message dumpOffset)).map String.ofList)

def encodeLines (lines : List String) : Bytes :=
  lines.flatMap fun line => Text.Utf8.encode line.toList ++ [0x0D, 0x0A]

def toMessage (p : Preset) : Bytes :=
  header ++ dumpCode :: encodeLines p.lines ++ [0x00, Bytes.sysexEnd]

end Preset

/-- The tag of a slot, which counts from one within a hundred. -/
def slotTag (id : Nat) : Bytes := Text.Utf8.encode ("[" ++ toString (id % 100 + 1) ++ "]").toList

def minLength : Nat := 9
def maxLength : Nat := 256

/-- The message that stores a preset dump in slot `id` of the pedal `device`. The tag of the dump is
taken to end at its first blank. -/
def retarget (data : Bytes) (device : UInt8) (id : Nat) : Except Failure Bytes :=
  if maxLength < data.length ∨ data.length ≤ minLength then
    .error (.badMessage ("bad preset length " ++ toString data.length))
  else match data with
    | 0xF0 :: 0x1C :: 0x70 :: _ :: 0x49 :: body =>
      match body.dropWhile (· ≠ 0x20) with
      | [] => .error (.badMessage "preset without id tag")
      | b :: rest => .ok (0xF0 :: 0x1C :: 0x70 :: device :: 0x49 :: slotTag id ++ b :: rest)
    | _ => .error (.badMessage "not an Eventide preset")

end MidiStorage.Eventide
