import MidiStorage.Bytes

namespace MidiStorage

structure Framer where
  /-- Data of the message under way, newest byte first; `none` between messages. -/
  current : Option Bytes := none
  queue : List Bytes := []
  /-- Bytes dropped since the last reset, real-time bytes apart. -/
  discarded : Nat := 0
  deriving DecidableEq, Repr

namespace Framer

def isReceiving (f : Framer) : Bool := f.current.isSome

def held (f : Framer) : Bytes :=
  match f.current with
  | none => []
  | some body => Bytes.sysexStart :: body.reverse

/-- Takes in one byte. A second start restarts the message; any other status byte aborts it. -/
def step (f : Framer) (b : UInt8) : Framer :=
  if Bytes.isRealtime b then f
  else if b = Bytes.sysexStart then
    { f with current := some [], discarded := f.discarded + f.held.length }
  else match f.current with
    | none => { f with discarded := f.discarded + 1 }
    | some body =>
      if b = Bytes.sysexEnd then
        { f with current := none, queue := f.queue ++ [f.held ++ [b]] }
      else if Bytes.isData b then { f with current := some (b :: body) }
      else { f with current := none, discarded := f.discarded + f.held.length + 1 }

/-- Takes in bytes one by one. The number of messages queued then is left out: no function here
reads it. -/
def push (f : Framer) (bytes : Bytes) : Framer := bytes.foldl step f

def pop (f : Framer) : Option Bytes × Framer :=
  match f.queue with
  | [] => (none, f)
  | message :: rest => (some message, { f with queue := rest })

def popAll (f : Framer) : List Bytes × Framer := (f.queue, { f with queue := [] })

def reset (_ : Framer) : Framer := {}

def messages (bytes : Bytes) : List Bytes := (push {} bytes).queue

@[simp] theorem push_nil (f : Framer) : f.push [] = f := rfl

@[simp] theorem push_cons (f : Framer) (b : UInt8) (bytes : Bytes) :
    f.push (b :: bytes) = (f.step b).push bytes := rfl

theorem push_append (f : Framer) (xs ys : Bytes) : f.push (xs ++ ys) = (f.push xs).push ys :=
  List.foldl_append ..

end Framer

end MidiStorage
