import MidiStorage.Proofs.Transfer.Replies

namespace MidiStorage

open MidiStorage.Action

namespace Link

variable {P : Type} {j : Job Float}

/-- The link serves the job as it was, or the same job cancelled. -/
def Serves (j : Job Float) (l : Link P) : Prop := l.run.job = j ∨ l.run.job = j.cancel

theorem Serves.cancelled {l : Link P} (serves : Serves j l) : l.run.job.cancel = j.cancel := by
  rcases serves with same | cancelled
  · rw [same]
  · rw [cancelled]
    rfl

theorem Serves.afterTurn {l : Link P} (serves : Serves j l) (port : P) (cancels : Bool)
    (event : Option LinkEvent) : Serves j (l.afterTurn port cancels event) := by
  unfold Link.afterTurn
  cases cancels with
  | true => exact Or.inr serves.cancelled
  | false => exact serves

theorem Serves.now (j : Job Float) : Preserves (Serves j) (now (P := P)) := by
  intro l serves
  unfold Link.now onRun
  rw [final_within]
  unfold Run.now
  cases l.run.clock.script with
  | nil => exact serves
  | cons tick script =>
    cases cancels : tick.cancels with
    | true =>
      right
      simpa [final, cancels] using serves.cancelled
    | false =>
      have same : Serves j l := serves
      simpa [final, cancels, Serves] using same

variable [Port P]

theorem serves_abiding (j : Job Float) : Abiding (P := P) (Serves j) where
  now := Serves.now j
  sleep _ _ serves := serves
  read _ serves := serves.afterTurn _ _ _
  push _ _ serves := serves
  pop _ serves := serves
  popAll _ serves := serves

theorem serves_write (j : Job Float) (bytes : Bytes) :
    Preserves (Serves j) (writeOnce bytes : Action (Link P) _) :=
  fun _ serves => Serves.afterTurn serves _ _ _

theorem serves_collect (j : Job Float) (t : Transfer) :
    Preserves (Serves j) (Exchange.collect t : Action (Link P) Bytes) :=
  Exchange.collect_abiding (serves_abiding j) t

theorem serves_sendSlices (j : Job Float) (watched : Bool) (slices : List Bytes) :
    Preserves (Serves j) (Exchange.sendSlices watched slices : Action (Link P) Unit) :=
  Exchange.sendSlices_preserves (serves_write j) watched slices

end Link

end MidiStorage
