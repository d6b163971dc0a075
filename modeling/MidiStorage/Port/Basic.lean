import MidiStorage.Bytes
import MidiStorage.Failure

namespace MidiStorage

structure Turn (P α : Type) where
  result : Except PortError α
  port : P
  /-- The job under way was cancelled during the call. -/
  cancels : Bool := false

/-- A byte channel to one device. Each call gives the port as it is afterwards, and none waits: a
read takes what is there. -/
class Port (P : Type) where
  name : P → String
  /-- The bytes available, at most `Port.readSize` of them; none when nothing arrived. -/
  read : P → Turn P Bytes
  /-- Accepts some of the bytes from the front and tells how many. -/
  write : P → Bytes → Turn P Nat
  /-- At most this many further reads bring bytes or are interrupted. -/
  readsLeft : P → Nat
  /-- At most this many further writes are interrupted. -/
  interruptsLeft : P → Nat

namespace Port

def readSize : Nat := 1024

def goesOn : Except PortError Bytes → Bool
  | .ok bytes => !bytes.isEmpty
  | .error e => e.kind = .interrupted

end Port

/-- Ports that keep within the sizes of their calls, and whose bounds on further calls hold. -/
class LawfulPort (P : Type) [Port P] : Prop where
  read_size (p : P) (bytes : Bytes) :
    (Port.read p).result = .ok bytes → bytes.length ≤ Port.readSize
  readsLeft_le (p : P) : Port.readsLeft (Port.read p).port ≤ Port.readsLeft p
  readsLeft_lt (p : P) :
    Port.goesOn (Port.read p).result → Port.readsLeft (Port.read p).port < Port.readsLeft p
  write_size (p : P) (bytes : Bytes) (n : Nat) :
    (Port.write p bytes).result = .ok n → n ≤ bytes.length
  interruptsLeft_le (p : P) (bytes : Bytes) :
    Port.interruptsLeft (Port.write p bytes).port ≤ Port.interruptsLeft p
  interruptsLeft_lt (p : P) (bytes : Bytes) (e : PortError) :
    (Port.write p bytes).result = .error e → e.kind = .interrupted →
      Port.interruptsLeft (Port.write p bytes).port < Port.interruptsLeft p

end MidiStorage
