namespace MidiStorage.Text

def cut (separator : Char) (cs : List Char) : List Char × Option (List Char) :=
  let before := cs.takeWhile (· ≠ separator)
  match cs.dropWhile (· ≠ separator) with
  | [] => (before, none)
  | _ :: behind => (before, some behind)

def lastPart (separator : Char) (cs : List Char) : List Char :=
  (cs.reverse.takeWhile (· ≠ separator)).reverse

def parts (separator : Char) : List Char → List (List Char)
  | [] => [[]]
  | c :: cs =>
    if c = separator then [] :: parts separator cs
    else match parts separator cs with
      | [] => [[c]]
      | part :: rest => (c :: part) :: rest

def trimEnd (separator : Char) (cs : List Char) : List Char :=
  (cs.reverse.dropWhile (· = separator)).reverse

/-- The lines between pairs of CR and LF; a lone CR or LF belongs to its line. -/
def lines : List Char → List (List Char)
  | [] => [[]]
  | '\r' :: '\n' :: cs => [] :: lines cs
  | c :: cs =>
    match lines cs with
    | [] => [[c]]
    | line :: rest => (c :: line) :: rest

end MidiStorage.Text
