namespace MidiStorage

/-- The numbers in which progress is measured. -/
class Progression (F : Type) where
  ofNat : Nat → F
  add : F → F → F
  div : F → F → F
  lt : F → F → Bool

instance : Progression Float where
  ofNat n := n.toUInt64.toFloat
  add := (· + ·)
  div := (· / ·)
  lt x y := x < y

namespace Progression

variable {F : Type} [Progression F]

/-- Brings a number into the range from 0 to 1; one that compares with neither stays as it is. -/
def clamp (x : F) : F :=
  let zero := ofNat 0
  let one := ofNat 1
  let raised := if lt x zero then zero else x
  if lt one raised then one else raised

end Progression

inductive JobNote
  | text (s : String)
  | number (n : Nat)
  deriving DecidableEq, Repr

structure Job (F : Type) where
  parts : Nat
  part : Nat
  progress : F
  active : Bool
  /-- A listener is told every progress value. -/
  observed : Bool
  reports : List F
  note : Option JobNote

namespace Job

variable {F : Type} [Progression F]

def create (observed : Bool) : Job F where
  parts := 0
  part := 0
  progress := Progression.ofNat 0
  active := true
  observed := observed
  reports := []
  note := none

def report (j : Job F) (x : F) : Job F :=
  if j.observed then { j with reports := j.reports ++ [x] } else j

def start (j : Job F) (parts : Nat) : Job F :=
  report { j with parts := max parts 1, part := 0, progress := Progression.ofNat 0 }
    (Progression.ofNat 0)

/-- Moves on to the next part; the last one is never left. -/
def nextPart (j : Job F) : Job F :=
  if j.part + 1 < j.parts then { j with part := j.part + 1 } else j

/-- The whole that is done when `fraction` of the current part is done: within part `p` of `n`, a
fraction `x` stands for `(p + x) / n`. -/
def overall (j : Job F) (fraction : F) : F :=
  Progression.clamp
    (Progression.div (Progression.add (Progression.ofNat j.part) (Progression.clamp fraction))
      (Progression.ofNat (max j.parts 1)))

def advance (j : Job F) (fraction : F) : Job F :=
  report { j with progress := j.overall fraction } (j.overall fraction)

def cancel (j : Job F) : Job F := { j with active := false }

def setNote (j : Job F) (note : JobNote) : Job F := { j with note := some note }

def takeText (j : Job F) : Option String × Job F :=
  match j.note with
  | some (.text s) => (some s, { j with note := none })
  | _ => (none, j)

def takeNumber (j : Job F) : Option Nat × Job F :=
  match j.note with
  | some (.number n) => (some n, { j with note := none })
  | _ => (none, j)

end Job

end MidiStorage
