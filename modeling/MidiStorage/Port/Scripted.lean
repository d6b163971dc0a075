import MidiStorage.Port.Basic

namespace MidiStorage

inductive ReadEntry
  /-- These bytes arrive; what does not fit into one read is left for the next. -/
  | bytes (bs : Bytes)
  | fault (e : PortError)
  | cancel
  deriving DecidableEq, Repr

inductive WriteEntry
  | accept (n : Nat)
  | fault (e : PortError)
  | cancel
  deriving DecidableEq, Repr

def ReadEntry.weight : ReadEntry → Nat
  | .bytes bs => bs.length
  | .fault _ => 1
  | .cancel => 0

/-- One entry for each read and one for each write. Past their end nothing arrives and everything is
accepted. -/
structure ScriptedPort where
  name : String
  reads : List ReadEntry := []
  writes : List WriteEntry := []
  deriving DecidableEq, Repr

namespace ScriptedPort

def read (p : ScriptedPort) : Turn ScriptedPort Bytes :=
  match p.reads with
  | [] => { result := .ok [], port := p }
  | .bytes bs :: rest =>
    let left := bs.drop Port.readSize
    { result := .ok (bs.take Port.readSize)
      port := { p with reads := if left.isEmpty then rest else .bytes left :: rest } }
  | .fault e :: rest => { result := .error e, port := { p with reads := rest } }
  | .cancel :: rest => { result := .ok [], port := { p with reads := rest }, cancels := true }

def write (p : ScriptedPort) (bytes : Bytes) : Turn ScriptedPort Nat :=
  match p.writes with
  | [] => { result := .ok bytes.length, port := p }
  | .accept n :: rest => { result := .ok (min n bytes.length), port := { p with writes := rest } }
  | .fault e :: rest => { result := .error e, port := { p with writes := rest } }
  | .cancel :: rest =>
    { result := .ok bytes.length, port := { p with writes := rest }, cancels := true }

def inject (p : ScriptedPort) (reads : List ReadEntry) : ScriptedPort :=
  { p with reads := p.reads ++ reads }

instance : Port ScriptedPort where
  name p := p.name
  read := read
  write := write
  readsLeft p := p.reads.foldr (fun entry n => entry.weight + n) 0
  interruptsLeft p := p.writes.length

instance : LawfulPort ScriptedPort where
  read_size p bytes h := by
    obtain ⟨name, reads, writes⟩ := p
    cases reads with
    | nil => cases h; simp
    | cons entry rest =>
      cases entry <;> cases h
      · exact List.length_take_le ..
      · exact Nat.zero_le _
  readsLeft_le p := by
    obtain ⟨name, reads, writes⟩ := p
    cases reads with
    | nil => exact Nat.le_refl _
    | cons entry rest =>
      cases entry with
      | bytes bs =>
        simp only [Port.readsLeft, Port.read, read]
        split <;> simp [ReadEntry.weight]
      | fault e => simp [Port.readsLeft, Port.read, read]
      | cancel => simp [Port.readsLeft, Port.read, read]
  readsLeft_lt p h := by
    obtain ⟨name, reads, writes⟩ := p
    cases reads with
    | nil => simp [Port.goesOn, Port.read, read] at h
    | cons entry rest =>
      cases entry with
      | bytes bs =>
        cases bs with
        | nil => simp [Port.goesOn, Port.read, read] at h
        | cons b bs =>
          simp only [Port.readsLeft, Port.read, read]
          split <;> simp only [List.foldr_cons, ReadEntry.weight, List.length_drop,
            List.length_cons, Port.readSize] <;> omega
      | fault e => simp [Port.readsLeft, Port.read, read, ReadEntry.weight]
      | cancel => simp [Port.goesOn, Port.read, read] at h
  write_size p bytes n h := by
    obtain ⟨name, reads, writes⟩ := p
    cases writes with
    | nil => cases h; exact Nat.le_refl _
    | cons entry rest =>
      cases entry <;> cases h
      · exact Nat.min_le_right ..
      · exact Nat.le_refl _
  interruptsLeft_le p bytes := by
    obtain ⟨name, reads, writes⟩ := p
    cases writes with
    | nil => exact Nat.le_refl _
    | cons entry rest => cases entry <;> exact Nat.le_succ _
  interruptsLeft_lt p bytes e h hi := by
    obtain ⟨name, reads, writes⟩ := p
    cases writes with
    | nil => cases h
    | cons entry rest => cases entry <;> exact Nat.lt_succ_self _

end ScriptedPort

end MidiStorage
