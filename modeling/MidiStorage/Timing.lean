import MidiStorage.Text.CharClass
import MidiStorage.Text.Decimal

namespace MidiStorage

/-- Durations in milliseconds. -/
structure Timing where
  pollInterval : Nat
  replyTimeout : Nat
  /-- Deadline of a detection probe, which the device may not understand. -/
  guessTimeout : Nat
  dumpTimeout : Nat
  /-- Silence after which a batch is complete. -/
  idleTimeout : Nat
  /-- Silence after which stale input is considered drained. -/
  restTime : Nat
  /-- Pause before repeating a bulk read that has side effects on the device. -/
  settlePause : Nat
  /-- How long to listen for an unexpected reply. -/
  silenceWindow : Nat
  deriving DecidableEq, Repr

namespace Timing

def standard : Timing where
  pollInterval := 10
  replyTimeout := 5000
  guessTimeout := 500
  dumpTimeout := 5000
  idleTimeout := 1000
  restTime := 50
  settlePause := 1000
  silenceWindow := 100

def readVariable (value : Option String) : Option Nat :=
  value.bind fun text => Text.Decimal.readBelow 0x10000000000000000 (Text.trim text.toList)

/-- The variables of the environment win over `base`. A poll interval of zero is ignored. -/
def withEnvironment (lookup : String → Option String) (base : Timing) : Timing :=
  let poll := (readVariable (lookup "SYSEX_FS_POLL_INTERVAL_MS")).filter (· ≠ 0)
  { base with
    pollInterval := poll.getD base.pollInterval
    replyTimeout := (readVariable (lookup "SYSEX_FS_SYSEX_TIMEOUT_MS")).getD base.replyTimeout
    dumpTimeout := (readVariable (lookup "SYSEX_FS_DUMP_TIMEOUT_MS")).getD base.dumpTimeout }

def ofEnvironment (lookup : String → Option String) : Timing := standard.withEnvironment lookup

end Timing

end MidiStorage
