import MidiStorage.Json.Basic

namespace MidiStorage.Json

def nat? (bound : Nat) : Json → Option Nat
  | .nat n => if n < bound then some n else none
  | _ => none

def string? : Json → Option String
  | .string s => s
  | _ => none

def optional? {α : Type} (read : Json → Option α) : Json → Option (Option α)
  | .null => some none
  | x => (read x).map some

def bytes? (n : Nat) : Json → Option (Vector UInt8 n)
  | .array items => do
    let bytes ← items.mapM (nat? 256)
    if h : bytes.length = n then some ⟨(bytes.map Nat.toUInt8).toArray, by simp [h]⟩ else none
  | _ => none

/-- A name that stands alone, or is the only key of an object and goes with `null`. -/
def name? : Json → Option String
  | .string s => s
  | .object [(key, .null)] => key
  | _ => none

/-- The value behind a key; `none` inside if there is none, `none` outside if there are several. -/
def field? (entries : List (Option String × Json)) (key : String) : Option (Option Json) :=
  match entries.filter (·.1 = some key) with
  | [] => some none
  | [(_, x)] => some (some x)
  | _ => none

/-- The fields of a record: those of an object, which may hold unknown keys but no known one twice,
or of an array in the order of the keys. -/
def fields? (keys : List String) : Json → Option (List (Option Json))
  | .array items => if items.length = keys.length then some (items.map some) else none
  | .object entries =>
    if entries.all (·.1.isSome) then keys.mapM (field? entries) else none
  | _ => none

def required {α : Type} (read : Json → Option α) (field : Option Json) : Option α := field.bind read

def missable {α : Type} (read : Json → Option α) : Option Json → Option (Option α)
  | none => some none
  | some x => optional? read x

end MidiStorage.Json
