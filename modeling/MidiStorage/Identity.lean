import MidiStorage.Bytes
import MidiStorage.Failure

namespace MidiStorage

structure Identity where
  /-- An id of one byte is followed by two zeros. -/
  company : Vector UInt8 3 := #v[0, 0, 0]
  family : Vector UInt8 2 := #v[0, 0]
  model : Vector UInt8 2 := #v[0, 0]
  version : Vector UInt8 4 := #v[0, 0, 0, 0]
  deriving DecidableEq, Repr

namespace Identity

def unknown : Identity := {}

def ofCodes (company : Vector UInt8 3) : Bytes → Except Failure Identity
  | f₀ :: f₁ :: m₀ :: m₁ :: v₀ :: v₁ :: v₂ :: v₃ :: _ =>
    .ok ⟨company, #v[f₀, f₁], #v[m₀, m₁], #v[v₀, v₁, v₂, v₃]⟩
  | _ => .error (.badMessage "illegal identity reply length")

def ofPayload : Bytes → Except Failure Identity
  | 0 :: c₁ :: c₂ :: rest => ofCodes #v[0, c₁, c₂] rest
  | 0 :: _ => .error (.badMessage "illegal identity reply length")
  | c :: rest => ofCodes #v[c, 0, 0] rest
  | [] => .error (.badMessage "illegal identity reply length")

/-- Reads `F0 7E <device> 06 02 <manufacturer> <family×2> <model×2> <version×4> ... F7`. -/
def ofReply (reply : Bytes) : Except Failure Identity :=
  match reply with
  | 0xF0 :: 0x7E :: _ :: 0x06 :: sub :: payload =>
    if sub = 0x02 then ofPayload payload
    else .error (.badMessage ("illegal SUB-ID2 0x" ++ Bytes.hex sub))
  | _ => .error (.badMessage "not an identity reply")

def versionString (i : Identity) : String :=
  ".".intercalate (i.version.toList.map fun b => toString b.toNat)

def hexCode (bytes : Bytes) : String := "-".intercalate (bytes.map Bytes.hex)

/-- All codes in one line, for instance `1c-00-00 00-06 11-00 5.1.0.7`. -/
def display (i : Identity) : String :=
  " ".intercalate
    [hexCode i.company.toList, hexCode i.family.toList, hexCode i.model.toList, i.versionString]

end Identity

end MidiStorage
