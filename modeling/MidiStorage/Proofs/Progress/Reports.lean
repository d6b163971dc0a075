import Mathlib.Tactic.Common
import MidiStorage.Link
import MidiStorage.Proofs.Action

namespace MidiStorage

namespace Job

variable {F : Type}

theorem report_active (j : Job F) (x : F) : (j.report x).active = j.active := by
  unfold report
  split_ifs <;> rfl

variable [Progression F]

theorem start_active (j : Job F) (parts : Nat) : (j.start parts).active = j.active :=
  report_active _ _

theorem advance_active (j : Job F) (fraction : F) : (j.advance fraction).active = j.active :=
  report_active _ _

end Job

namespace Run

variable (r : Run) (change : Job Float → Job Float)

theorem report_job :
    (r.report change).job = if r.interrupts 0 then (change r.job).cancel else change r.job := rfl

theorem report_active :
    (r.report change).job.active = ((change r.job).active && !r.interrupts 0) := by
  rw [report_job]
  cases r.interrupts 0 with
  | true => exact (Bool.and_false _).symm
  | false => exact (Bool.and_true _).symm

theorem report_interrupts (value : Nat) :
    (r.report change).interrupts value = r.interrupts (value + 1) := by
  unfold report interrupts
  cases r.hearings <;> rfl

theorem now_hearings (hearings : List Bool) : Action.Preserves (·.hearings = hearings) now := by
  intro r same
  unfold now
  cases r.clock.script <;> exact same

end Run

namespace Link

variable {P : Type}

theorem report_apply (change : Job Float → Job Float) (l : Link P) :
    report change l = .ok () { l with run := l.run.report change } := rfl

def started (l : Link P) : Link P := { l with run := l.run.report (·.start 1) }

def finished (l : Link P) : Link P := { l with run := l.run.report (·.advance 1.0) }

theorem start_apply (l : Link P) : report (·.start 1) l = .ok () l.started := rfl

theorem started_active (l : Link P) :
    l.started.run.job.active = (l.run.job.active && !l.run.interrupts 0) := by
  rw [started, Run.report_active, Job.start_active]

theorem finished_active (l : Link P) :
    l.finished.run.job.active = (l.run.job.active && !l.run.interrupts 0) := by
  rw [finished, Run.report_active, Job.advance_active]

theorem finished_inactive_iff (l : Link P) : l.finished.run.job.active = false ↔
    l.run.job.active = false ∨ l.run.interrupts 0 = true := by
  rw [finished_active, Bool.and_eq_false_iff, Bool.not_eq_false']

theorem started_inactive {l : Link P} (inactive : l.run.job.active = false) :
    l.started.run.job.active = false := by
  rw [started_active, inactive, Bool.false_and]

/-- Nothing looks at the job once it is to be reported as done. -/
theorem missed_iff {α : Type} {late done : α → Link P → Prop} {result : EStateM.Result Failure (Link P) α}
    (ended : ∀ x l', result = .ok x l' ↔ ∃ l₁, done x l₁ ∧ l' = l₁.finished)
    (unseen : ∀ x l₁, done x l₁ ∧ l₁.run.job.active = false ↔ late x l₁) (x : α) (l' : Link P) :
    (result = .ok x l' ∧ l'.run.job.active = false) ↔
      ∃ l₁, (late x l₁ ∨ done x l₁ ∧ l₁.run.interrupts 0 = true) ∧ l' = l₁.finished := by
  rw [ended]
  constructor
  · rintro ⟨⟨l₁, finishing, rfl⟩, inactive⟩
    refine ⟨l₁, ?_, rfl⟩
    rcases (finished_inactive_iff l₁).mp inactive with before | meanwhile
    · exact Or.inl ((unseen x l₁).mp ⟨finishing, before⟩)
    · exact Or.inr ⟨finishing, meanwhile⟩
  · rintro ⟨l₁, missed, rfl⟩
    rcases missed with late | ⟨finishing, meanwhile⟩
    · obtain ⟨finishing, before⟩ := (unseen x l₁).mpr late
      exact ⟨⟨l₁, finishing, rfl⟩, (finished_inactive_iff l₁).mpr (Or.inl before)⟩
    · exact ⟨⟨l₁, finishing, rfl⟩, (finished_inactive_iff l₁).mpr (Or.inr meanwhile)⟩

end Link

end MidiStorage
