import MidiStorage.Bytes

namespace MidiStorage

/-- Replies by the exact bytes of their requests. A cache is off until it is enabled, and holds
nothing while it is off. -/
structure ReplyCache where
  enabled : Bool := false
  entries : List (Bytes × Bytes) := []
  deriving DecidableEq, Repr

namespace ReplyCache

def enable (c : ReplyCache) : ReplyCache := { c with enabled := true }

def disable (_ : ReplyCache) : ReplyCache := {}

def clear (c : ReplyCache) : ReplyCache := { c with entries := [] }

def get? (c : ReplyCache) (request : Bytes) : Option Bytes :=
  if c.enabled then c.entries.lookup request else none

def insert (c : ReplyCache) (request reply : Bytes) : ReplyCache :=
  if c.enabled then
    { c with entries := (request, reply) :: c.entries.filter (·.1 != request) }
  else c

end ReplyCache

end MidiStorage
