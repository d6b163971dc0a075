namespace MidiStorage

abbrev Bytes := List UInt8

namespace Bytes

def sysexStart : UInt8 := 0xF0
def sysexEnd : UInt8 := 0xF7

/-- Clock and sensing bytes, which may appear anywhere in the stream. -/
def isRealtime (b : UInt8) : Bool := 0xF8 ≤ b

def isData (b : UInt8) : Bool := b < 0x80

def hex (b : UInt8) : String :=
  String.ofList [Nat.digitChar (b.toNat / 16), Nat.digitChar (b.toNat % 16)]

def slicesWithin (size : Nat) : Nat → Bytes → List Bytes
  | 0, _ => []
  | _, [] => []
  | rounds + 1, bytes => bytes.take size :: slicesWithin size rounds (bytes.drop size)

/-- Consecutive slices of `size` bytes; only the last may be shorter. -/
def slices (size : Nat) (bytes : Bytes) : List Bytes := slicesWithin size bytes.length bytes

end Bytes

def identityRequest : Bytes := [0xF0, 0x7E, 0x7F, 0x06, 0x01, 0xF7]

end MidiStorage
