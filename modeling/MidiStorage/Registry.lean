import MidiStorage.Detection
import MidiStorage.Eventide.Dialect

namespace MidiStorage

/-- Dialects that rely on the standard identity inquiry come first and the one that matches any
device comes last. -/
def registry (P : Type) [Port P] : List (Dialect P) := [Eventide.dialect P, Dialect.fallback P]

def registered? (P : Type) [Port P] (name : String) : Option (Dialect P) :=
  (registry P).find? (·.name = name)

end MidiStorage
