import MidiStorage.Eventide.Preset

namespace MidiStorage.Eventide

inductive PedalKind
  | factor
  | h9
  deriving DecidableEq, Repr

namespace PedalKind

def ofSwitchCount? : Nat → Option PedalKind
  | 17 => some factor
  | 18 => some h9
  | _ => none

def label : PedalKind → String
  | factor => "Eventide Factor"
  | h9 => "Eventide H9"

end PedalKind

structure Pedal where
  /-- The number that the pedal puts into its messages. -/
  deviceId : UInt8
  kind : PedalKind
  first : Nat
  count : Nat
  /-- The presets as last read, kept in line with what was sent since. -/
  bank : Option (List Preset) := none
  deriving DecidableEq, Repr

namespace Pedal

def index (p : Pedal) (id : Nat) (path : String) : Except Failure Nat :=
  if p.first ≤ id ∧ id - p.first < p.count then .ok (id - p.first)
  else .error (.invalidPath path)

/-- Keeps the bank in line with a message just sent to a slot. A bank without that slot, or a
message without a whole preset, leaves no bank. -/
def refresh (p : Pedal) (index : Nat) (message : Bytes) : Pedal :=
  match p.bank with
  | none => p
  | some bank =>
    match Preset.ofDump message with
    | preset :: _ =>
      if index < bank.length then { p with bank := some (bank.set index preset) }
      else { p with bank := none }
    | [] => { p with bank := none }

end Pedal

/-- Bank numbers and what is computed from them have 64 bits. -/
def fitsWord (n : Int) : Bool := -0x8000000000000000 ≤ n && n < 0x8000000000000000

def factorRange? (low high : Int) : Option (Int × Int) :=
  if fitsWord (2 * low) && fitsWord (high + 1) && fitsWord (2 * (high + 1)) then
    some (2 * low, 2 * (high + 1))
  else none

/-- The half-open range of preset numbers that a pedal's answers describe. -/
def presetBounds (kind : PedalKind) (low high : Int) : Except Failure (Int × Int) :=
  match kind with
  | .h9 => .ok (low, high)
  | .factor =>
    match factorRange? low high with
    | some bounds => .ok bounds
    | none =>
      .error (.badMessage
        ("illegal bank range [" ++ toString low ++ ", " ++ toString high ++ "]"))

def slotRange (kind : PedalKind) (low high : Int) : Except Failure (Nat × Nat) :=
  match presetBounds kind low high with
  | .error e => .error e
  | .ok (low, high) =>
    if !fitsWord (high - low) || high - low < 0 || 0x100000000 ≤ high - low then
      .error (.badMessage
        ("illegal preset range [" ++ toString low ++ ", " ++ toString high ++ ")"))
    else if low < 0 || 0x100000000 ≤ low then
      .error (.badMessage ("illegal first preset " ++ toString low))
    else .ok (low.toNat, (high - low).toNat)

end MidiStorage.Eventide
