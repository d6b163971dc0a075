namespace MidiStorage

inductive Json
  | null
  | bool (b : Bool)
  | nat (n : Nat)
  /-- A number that is written with a sign, a fraction or an exponent. -/
  | otherNumber
  /-- A string; `none` if its escapes do not spell a Unicode text. -/
  | string (s : Option String)
  | array (items : List Json)
  | object (entries : List (Option String × Json))

namespace Json

def text (s : String) : Json := .string (some s)

def record (entries : List (String × Json)) : Json :=
  .object (entries.map fun (key, value) => (some key, value))

end Json

end MidiStorage
