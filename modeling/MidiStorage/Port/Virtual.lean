import MidiStorage.Framer
import MidiStorage.Port.Basic

namespace MidiStorage

/-- What a device does with a request: the byte strings it sends, and whether the job under way is
cancelled first. -/
structure Reply where
  parts : List Bytes := []
  cancels : Bool := false
  deriving DecidableEq, Repr

/-- A port to a device that exists in memory only. Written bytes are framed, and every complete
message is a request to the device. -/
structure VirtualPort where
  name : String
  /-- The device, given the requests before this one (oldest first) and this one. -/
  respond : List Bytes → Bytes → Reply
  requests : List Bytes := []
  framer : Framer := {}
  pending : Bytes := []
  written : Bytes := []
  unplugged : Bool := false

namespace VirtualPort

def silent (name : String) : VirtualPort := { name, respond := fun _ _ => {} }

def inject (p : VirtualPort) (bytes : Bytes) : VirtualPort :=
  { p with pending := p.pending ++ bytes }

def unplug (p : VirtualPort) : VirtualPort := { p with unplugged := true }

def clearWritten (p : VirtualPort) : VirtualPort := { p with written := [] }

def sentMessages (p : VirtualPort) : List Bytes := Framer.messages p.written

def read (p : VirtualPort) : Turn VirtualPort Bytes where
  result := .ok (p.pending.take Port.readSize)
  port := { p with pending := p.pending.drop Port.readSize }

/-- Hands one request to the device; the flag gathers whether any reply cancelled. -/
def request (state : VirtualPort × Bool) (message : Bytes) : VirtualPort × Bool :=
  let (p, cancelled) := state
  let reply := p.respond p.requests message
  ({ p with requests := p.requests ++ [message], pending := p.pending ++ reply.parts.flatten },
    cancelled || reply.cancels)

def write (p : VirtualPort) (bytes : Bytes) : Turn VirtualPort Nat :=
  if p.unplugged then
    { result := .error ⟨.brokenPipe, "virtual port unplugged"⟩, port := p }
  else
    let (messages, framer) := (p.framer.push bytes).popAll
    let (port, cancelled) :=
      messages.foldl request ({ p with written := p.written ++ bytes, framer }, false)
    { result := .ok bytes.length, port, cancels := cancelled }

instance : Port VirtualPort where
  name p := p.name
  read := read
  write := write
  readsLeft p := p.pending.length
  interruptsLeft _ := 0

instance : LawfulPort VirtualPort where
  read_size p bytes h := by
    cases h
    exact List.length_take_le ..
  readsLeft_le p := by simp [Port.readsLeft, Port.read, read]
  readsLeft_lt p h := by
    cases hp : p.pending with
    | nil => simp [Port.goesOn, Port.read, read, hp] at h
    | cons b rest =>
      simp only [Port.readsLeft, Port.read, read, hp, List.length_drop, List.length_cons,
        Port.readSize]
      omega
  write_size p bytes n h := by
    simp only [Port.write, write] at h
    split at h
    · cases h
    · exact Nat.le_of_eq (Except.ok.inj h).symm
  interruptsLeft_le _ _ := Nat.le_refl 0
  interruptsLeft_lt p bytes e h hi := by
    simp only [Port.write, write] at h
    split at h
    · rw [← Except.error.inj h] at hi
      cases hi
    · cases h

end VirtualPort

/-- One way in which a device answers: to equal requests, or to all that begin alike. -/
structure ReplyRule where
  request : Bytes
  byStart : Bool := false
  /-- The replies to the first use, the second and so on; the last one repeats. -/
  replies : List (List Bytes) := []
  cancels : Bool := false
  deriving DecidableEq, Repr

namespace ReplyRule

def applies (r : ReplyRule) (message : Bytes) : Bool :=
  if r.byStart then r.request.isPrefixOf message else r.request == message

def reply (r : ReplyRule) (use : Nat) : Reply where
  parts := r.replies.getD (min use (r.replies.length - 1)) []
  cancels := r.cancels

def device (rules : List ReplyRule) (earlier : List Bytes) (message : Bytes) : Reply :=
  let choice (m : Bytes) := rules.findIdx? (·.applies m)
  match choice message with
  | none => {}
  | some i =>
    match rules[i]? with
    | none => {}
    | some rule => rule.reply (earlier.countP fun m => choice m == some i)

end ReplyRule

end MidiStorage
