namespace MidiStorage.JobId

def hexDigits (n : Nat) : (count : Nat) → List Char
  | 0 => []
  | count + 1 => hexDigits (n / 16) count ++ [Nat.digitChar (n % 16)]

/-- The UUID of version 4 with these free bits. -/
def ofBits (bits : Nat) : String :=
  let digits := hexDigits bits 30
  let variant := Nat.digitChar (8 + (bits >>> 120) % 4)
  let group (start size : Nat) := String.ofList ((digits.drop start).take size)
  "-".intercalate
    [group 0 8, group 8 4, "4" ++ group 12 3, String.ofList [variant] ++ group 15 3, group 18 12]

example : ofBits (2 ^ 122 - 1) = "ffffffff-ffff-4fff-bfff-ffffffffffff" := by decide

end MidiStorage.JobId
