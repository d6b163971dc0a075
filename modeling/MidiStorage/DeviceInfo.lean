import MidiStorage.Identity

namespace MidiStorage

structure DeviceInfo where
  name : String := ""
  identity : Identity := .unknown
  /-- The bits of the ids of the mounted volumes. -/
  volumes : Nat := 0
  /-- The bits of the storage areas that have statistics. -/
  storage : Nat := 0
  deriving DecidableEq, Repr

structure SystemPort where
  id : String
  name : String
  deriving DecidableEq, Repr

structure StorageStats where
  name : String
  total : Nat
  free : Nat
  deriving DecidableEq, Repr

namespace StorageStats

/-- Used space in percent; zero for an area of unknown size. -/
def usedPercent (s : StorageStats) : Float :=
  if s.total = 0 then 0.0
  else (s.total - s.free).toUInt64.toFloat * 100.0 / s.total.toUInt64.toFloat

end StorageStats

end MidiStorage
