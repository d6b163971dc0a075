namespace MidiStorage.Text.Utf8

def replacement : Char := '\uFFFD'

/-- A character under way: its bits so far, the bytes still missing, and what the next may be. -/
structure Pending where
  bits : Nat
  missing : Nat
  low : Nat
  high : Nat

def begins (b : Nat) : List Char × Option Pending :=
  if b < 0x80 then ([Char.ofNat b], none)
  else if 0xC2 ≤ b ∧ b ≤ 0xDF then ([], some ⟨b - 0xC0, 1, 0x80, 0xBF⟩)
  else if 0xE0 ≤ b ∧ b ≤ 0xEF then
    ([], some ⟨b - 0xE0, 2, if b = 0xE0 then 0xA0 else 0x80, if b = 0xED then 0x9F else 0xBF⟩)
  else if 0xF0 ≤ b ∧ b ≤ 0xF4 then
    ([], some ⟨b - 0xF0, 3, if b = 0xF0 then 0x90 else 0x80, if b = 0xF4 then 0x8F else 0xBF⟩)
  else ([replacement], none)

/-- One byte: the characters it completes or spoils, and the character it leaves under way. -/
def step : Option Pending → Nat → List Char × Option Pending
  | none, b => begins b
  | some p, b =>
    if p.low ≤ b ∧ b ≤ p.high then
      let bits := 64 * p.bits + (b - 0x80)
      if p.missing = 1 then ([Char.ofNat bits], none)
      else ([], some ⟨bits, p.missing - 1, 0x80, 0xBF⟩)
    else
      let (cs, next) := begins b
      (replacement :: cs, next)

def decodeFrom : Option Pending → List UInt8 → List Char
  | none, [] => []
  | some _, [] => [replacement]
  | p, b :: rest =>
    let (cs, next) := step p b.toNat
    cs ++ decodeFrom next rest

/-- Every longest run of bytes that begins a character but does not finish it, and every byte that
begins none, reads as one replacement character. -/
def decode (bytes : List UInt8) : List Char := decodeFrom none bytes

def encodeChar (c : Char) : List UInt8 :=
  let n := c.toNat
  if n < 0x80 then [n.toUInt8]
  else if n < 0x800 then [(0xC0 + n / 64).toUInt8, (0x80 + n % 64).toUInt8]
  else if n < 0x10000 then
    [(0xE0 + n / 4096).toUInt8, (0x80 + n / 64 % 64).toUInt8, (0x80 + n % 64).toUInt8]
  else
    [(0xF0 + n / 262144).toUInt8, (0x80 + n / 4096 % 64).toUInt8, (0x80 + n / 64 % 64).toUInt8,
     (0x80 + n % 64).toUInt8]

def encode (cs : List Char) : List UInt8 := cs.flatMap encodeChar

example : decode [0xE2, 0x82, 0xAC, 0xF0, 0x9F, 0x41, 0xFF] =
    ['€', replacement, 'A', replacement] := by decide
example : decode (encode ['é', '日', '🎸']) = ['é', '日', '🎸'] := by decide

end MidiStorage.Text.Utf8
