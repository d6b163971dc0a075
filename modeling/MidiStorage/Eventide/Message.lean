import MidiStorage.Bytes
import MidiStorage.Text.CharClass
import MidiStorage.Text.Decimal
import MidiStorage.Text.Utf8

namespace MidiStorage.Eventide

def header : Bytes := [0xF0, 0x1C, 0x70, 0x00]

def deviceOffset : Nat := 3

inductive QueryType
  | object
  | value
  deriving DecidableEq, Repr

def QueryType.code : QueryType → UInt8
  | object => 0x31
  | value => 0x3B

/-- A query names a key of four characters. -/
def query (type : QueryType) (key : String) : Bytes :=
  header ++ type.code :: Text.Utf8.encode key.toList ++ [Bytes.sysexEnd]

def keyVersion : String := "0000"
def keySwitches : String := "0001"
def keyLowBank : String := "0206"
def keyHighBank : String := "020A"

def bulkRequest : Bytes := header ++ [0x48, Bytes.sysexEnd]

def dumpCode : UInt8 := 0x49

def textOffset : Nat := 7
def numberOffset : Nat := 9
def dumpOffset : Nat := 5

/-- The text from an offset up to the first NUL or end mark. -/
def textAt (message : Bytes) (offset : Nat) : List Char :=
  Text.Utf8.decode ((message.drop offset).takeWhile fun b => b ≠ 0 ∧ b ≠ Bytes.sysexEnd)

def numberAt (message : Bytes) (offset : Nat) : Int :=
  Text.Decimal.leading Text.isBlank (textAt message offset)

end MidiStorage.Eventide
