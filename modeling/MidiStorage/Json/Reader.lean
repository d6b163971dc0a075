import MidiStorage.Json.Basic
import MidiStorage.Text.Decimal

namespace MidiStorage.Json.Reader

abbrev Input := List Char

def skipBlanks (cs : Input) : Input :=
  cs.dropWhile fun c => c = ' ' ∨ c = '\n' ∨ c = '\t' ∨ c = '\r'

def hexValue? (c : Char) : Option Nat :=
  if '0' ≤ c ∧ c ≤ '9' then some (c.toNat - '0'.toNat)
  else if 'a' ≤ c ∧ c ≤ 'f' then some (c.toNat - 'a'.toNat + 10)
  else if 'A' ≤ c ∧ c ≤ 'F' then some (c.toNat - 'A'.toNat + 10)
  else none

def hexUnit? (digits : List Char) : Option Nat :=
  digits.foldl (fun n c => return 16 * (← n) + (← hexValue? c)) (some 0)

def escaped? : Char → Option Nat
  | '"' => some 0x22
  | '\\' => some 0x5C
  | '/' => some 0x2F
  | 'b' => some 0x08
  | 'f' => some 0x0C
  | 'n' => some 0x0A
  | 'r' => some 0x0D
  | 't' => some 0x09
  | _ => none

/-- The code points of a string behind its opening quote, with surrogates still apart. -/
def units : Input → Option (List Nat × Input)
  | [] => none
  | '"' :: rest => some ([], rest)
  | '\\' :: 'u' :: a :: b :: c :: d :: rest => do
    let unit ← hexUnit? [a, b, c, d]
    let (us, rest) ← units rest
    return (unit :: us, rest)
  | '\\' :: c :: rest => do
    let unit ← escaped? c
    let (us, rest) ← units rest
    return (unit :: us, rest)
  | c :: rest => do
    if c = '\\' ∨ c.toNat < 0x20 then none
    else
      let (us, rest) ← units rest
      return (c.toNat :: us, rest)

def isHigh (n : Nat) : Bool := 0xD800 ≤ n && n < 0xDC00
def isLow (n : Nat) : Bool := 0xDC00 ≤ n && n < 0xE000

/-- The characters of code points among which surrogates stand in pairs; half a pair spells no
text. -/
def joinPairs : List Nat → Option (List Char)
  | [] => some []
  | high :: low :: rest =>
    if isHigh high then
      if isLow low then do
        let cs ← joinPairs rest
        return Char.ofNat (0x10000 + 0x400 * (high - 0xD800) + (low - 0xDC00)) :: cs
      else none
    else if isLow high then none
    else (joinPairs (low :: rest)).map (Char.ofNat high :: ·)
  | [n] => if isHigh n || isLow n then none else some [Char.ofNat n]

def string (cs : Input) : Option (Option String × Input) := do
  let (us, rest) ← units cs
  return ((joinPairs us).map String.ofList, rest)

def digits (cs : Input) : Input × Input :=
  (cs.takeWhile Text.Decimal.isDigit, cs.dropWhile Text.Decimal.isDigit)

def integerPart (cs : Input) : Option (Input × Input) :=
  match digits cs with
  | ([], _) => none
  | ('0' :: _ :: _, _) => none
  | found => some found

def fraction : Input → Option (Bool × Input)
  | '.' :: rest => if (digits rest).1.isEmpty then none else some (true, (digits rest).2)
  | rest => some (false, rest)

def exponent : Input → Option (Bool × Input)
  | 'e' :: rest | 'E' :: rest =>
    let unsigned := match rest with
      | '+' :: more | '-' :: more => more
      | _ => rest
    if (digits unsigned).1.isEmpty then none else some (true, (digits unsigned).2)
  | rest => some (false, rest)

def number (cs : Input) : Option (Json × Input) := do
  let (negative, unsigned) := match cs with
    | '-' :: rest => (true, rest)
    | _ => (false, cs)
  let (whole, rest) ← integerPart unsigned
  let (hasFraction, rest) ← fraction rest
  let (hasExponent, rest) ← exponent rest
  let value :=
    if negative || hasFraction || hasExponent then .otherNumber
    else .nat (Text.Decimal.value whole)
  return (value, rest)

def word (w : String) (cs : Input) : Option Input :=
  if w.toList.isPrefixOf cs then some (cs.drop w.length) else none

mutual

/-- A value; `depth` bounds how often values lie in each other or follow each other. -/
def value : (depth : Nat) → Input → Option (Json × Input)
  | 0, _ => none
  | depth + 1, cs =>
    match skipBlanks cs with
    | '"' :: rest => (string rest).map fun (s, rest) => (.string s, rest)
    | '[' :: rest =>
      match skipBlanks rest with
      | ']' :: rest => some (.array [], rest)
      | rest => (items depth rest).map fun (xs, rest) => (.array xs, rest)
    | '{' :: rest =>
      match skipBlanks rest with
      | '}' :: rest => some (.object [], rest)
      | rest => (entries depth rest).map fun (xs, rest) => (.object xs, rest)
    | 'n' :: rest => (word "ull" rest).map fun rest => (.null, rest)
    | 't' :: rest => (word "rue" rest).map fun rest => (.bool true, rest)
    | 'f' :: rest => (word "alse" rest).map fun rest => (.bool false, rest)
    | rest => number rest

def items : (depth : Nat) → Input → Option (List Json × Input)
  | 0, _ => none
  | depth + 1, cs => do
    let (x, rest) ← value depth cs
    match skipBlanks rest with
    | ',' :: rest =>
      let (xs, rest) ← items depth rest
      return (x :: xs, rest)
    | ']' :: rest => return ([x], rest)
    | _ => none

def entries : (depth : Nat) → Input → Option (List (Option String × Json) × Input)
  | 0, _ => none
  | depth + 1, cs => do
    match skipBlanks cs with
    | '"' :: rest =>
      let (key, rest) ← string rest
      match skipBlanks rest with
      | ':' :: rest =>
        let (x, rest) ← value depth rest
        match skipBlanks rest with
        | ',' :: rest =>
          let (xs, rest) ← entries depth rest
          return ((key, x) :: xs, rest)
        | '}' :: rest => return ([(key, x)], rest)
        | _ => none
      | _ => none
    | _ => none

end

end Reader

def read (s : String) : Option Json := do
  let (x, rest) ← Reader.value (s.length + 1) s.toList
  if (Reader.skipBlanks rest).isEmpty then some x else none

end MidiStorage.Json
