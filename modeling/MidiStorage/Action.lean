import MidiStorage.Failure

namespace MidiStorage

/-- A failed action keeps the state that it left behind. -/
abbrev Action (σ α : Type) := EStateM Failure σ α

namespace Action

variable {σ τ α : Type}

def within (view : σ → τ) (update : σ → τ → σ) (a : Action τ α) : Action σ α := fun s =>
  match a (view s) with
  | .ok x t => .ok x (update s t)
  | .error e t => .error e (update s t)

def outcome (a : Action σ α) : Action σ (Except Failure α) := fun s =>
  match a s with
  | .ok x t => .ok (.ok x) t
  | .error e t => .ok (.error e) t

def ofExcept : Except Failure α → Action σ α
  | .ok x => pure x
  | .error e => throw e

end Action

end MidiStorage
