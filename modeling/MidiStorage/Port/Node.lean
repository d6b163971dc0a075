import MidiStorage.Host
import MidiStorage.Port.Basic

namespace MidiStorage

/-- Reads and writes share one position, and writing replaces what is there. -/
structure NodePort where
  name : String
  content : Bytes
  position : Nat := 0
  keeps : Bool := true
  full : Bool := false
  deriving DecidableEq, Repr

namespace NodePort

def ofNode (name : String) : Node → NodePort
  | .file content => { name, content }
  | .directory | .sink => { name, content := [], keeps := false }
  | .full => { name, content := [], full := true }

def read (p : NodePort) : Turn NodePort Bytes :=
  let bytes := (p.content.drop p.position).take Port.readSize
  { result := .ok bytes, port := { p with position := p.position + bytes.length } }

def store (p : NodePort) (bytes : Bytes) : NodePort :=
  if p.keeps then
    { p with
      content := p.content.take p.position ++ bytes ++ p.content.drop (p.position + bytes.length)
      position := p.position + bytes.length }
  else p

def write (p : NodePort) (bytes : Bytes) : Turn NodePort Nat :=
  if p.full then { result := .error Host.noSpace, port := p }
  else { result := .ok bytes.length, port := p.store bytes }

instance : Port NodePort where
  name p := p.name
  read := read
  write := write
  readsLeft p := p.content.length - p.position
  interruptsLeft _ := 0

instance : LawfulPort NodePort where
  read_size p bytes h := by
    cases h
    exact List.length_take_le ..
  readsLeft_le p := by
    simp only [Port.readsLeft, Port.read, read]
    omega
  readsLeft_lt p h := by
    simp only [Port.goesOn, Port.read, read, Port.readsLeft] at h ⊢
    have brought : (p.content.drop p.position).take Port.readSize ≠ [] := by simpa using h
    have taken := List.length_pos_iff.mpr brought
    simp only [List.length_take, List.length_drop] at taken ⊢
    omega
  write_size p bytes n h := by
    simp only [Port.write, write] at h
    split at h
    · cases h
    · exact Nat.le_of_eq (Except.ok.inj h).symm
  interruptsLeft_le _ _ := Nat.le_refl 0
  interruptsLeft_lt p bytes e h hi := by
    simp only [Port.write, write] at h
    split at h
    · rw [← Except.error.inj h] at hi
      cases hi
    · cases h

end NodePort

end MidiStorage
