import MidiStorage.Dialect

namespace MidiStorage

inductive Detection (P : Type)
  | found (session : Session P)
  | failed (cause : Failure) (link : Link P)

namespace Detection

variable {P : Type}

def failure (cause : Failure) (m : Mount P) : Detection P := .failed cause m.device.link.close

def drained [Port P] (m : Mount P) : Mount P :=
  match Mount.onLink Link.drain m with
  | .ok _ m => m
  | .error _ m => m

/-- Tries dialects in order: one that answers `notFound` passes the device on, any other failure
ends the search. With a name, only the dialects of that name are asked; cancelling is noticed at
every one. -/
def search [Port P] (wanted : Option String) (watched : Bool) :
    List (Dialect P) → Mount P → Detection P
  | [], m => failure (.notFound ("No device recognized on " ++ m.device.link.id)) m
  | dialect :: rest, m =>
    if watched && !m.device.link.run.job.active then failure .cancelled m
    else if wanted.any (· ≠ dialect.name) then search wanted watched rest m
    else match dialect.handshake m.forget with
      | .ok _ m => .found ⟨m, some dialect⟩
      | .error e m =>
        if e.isNotFound then search wanted watched rest (drained m) else failure e m

def detect [Port P] (dialects : List (Dialect P)) (wanted : Option String) (watched : Bool)
    (link : Link P) : Detection P :=
  search wanted watched dialects (drained (Mount.ofLink link))

end Detection

end MidiStorage
