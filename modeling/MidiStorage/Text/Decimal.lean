namespace MidiStorage.Text.Decimal

def isDigit (c : Char) : Bool := '0' ≤ c && c ≤ '9'

def digitValue (c : Char) : Nat := c.toNat - '0'.toNat

def value (digits : List Char) : Nat := digits.foldl (fun n c => 10 * n + digitValue c) 0

def readDigits (cs : List Char) : Option Nat :=
  if !cs.isEmpty && cs.all isDigit then some (value cs) else none

/-- A natural number below `bound`, with an optional plus sign. -/
def readBelow (bound : Nat) (cs : List Char) : Option Nat :=
  let digits := match cs with
    | '+' :: rest => rest
    | _ => cs
  (readDigits digits).filter (· < bound)

/-- The integer that a text begins with, after blanks and at most one sign; `0` when there is none
or when its digits write more than `2 ^ 63 - 1`. -/
def leading (skip : Char → Bool) (cs : List Char) : Int :=
  let trimmed := cs.dropWhile skip
  let (negative, digits) := match trimmed with
    | '-' :: rest => (true, rest)
    | '+' :: rest => (false, rest)
    | _ => (false, trimmed)
  match readBelow 0x8000000000000000 (digits.takeWhile isDigit) with
  | none => 0
  | some n => if negative then -(n : Int) else n

end MidiStorage.Text.Decimal
