import Mathlib.Algebra.Order.Field.Rat
import Mathlib.Tactic.Common
import Mathlib.Tactic.GCongr
import Mathlib.Tactic.Linarith
import Mathlib.Tactic.Positivity
import MidiStorage.Job

namespace MidiStorage

namespace Job

variable {F : Type}

section Report

variable (j : Job F) (x : F)

@[simp] theorem report_parts : (j.report x).parts = j.parts := by unfold report; split_ifs <;> rfl

@[simp] theorem report_part : (j.report x).part = j.part := by unfold report; split_ifs <;> rfl

@[simp] theorem report_progress : (j.report x).progress = j.progress := by
  unfold report; split_ifs <;> rfl

@[simp] theorem report_observed : (j.report x).observed = j.observed := by
  unfold report; split_ifs <;> rfl

theorem report_reports {j : Job F} (heard : j.observed = true) :
    (j.report x).reports = j.reports ++ [x] := by rw [report, if_pos heard]

end Report

@[simp] theorem nextPart_parts (j : Job F) : j.nextPart.parts = j.parts := by
  unfold nextPart; split_ifs <;> rfl

@[simp] theorem nextPart_progress (j : Job F) : j.nextPart.progress = j.progress := by
  unfold nextPart; split_ifs <;> rfl

@[simp] theorem nextPart_observed (j : Job F) : j.nextPart.observed = j.observed := by
  unfold nextPart; split_ifs <;> rfl

@[simp] theorem nextPart_reports (j : Job F) : j.nextPart.reports = j.reports := by
  unfold nextPart; split_ifs <;> rfl

theorem nextPart_part {j : Job F} (begun : j.part < j.parts) :
    j.nextPart.part = min (j.part + 1) (j.parts - 1) := by
  unfold nextPart
  split_ifs with further
  · dsimp only; omega
  · omega

variable [Progression F]

theorem start_reports {j : Job F} (heard : j.observed = true) (n : Nat) :
    (j.start n).reports = j.reports ++ [Progression.ofNat 0] :=
  report_reports (j := { j with parts := max n 1, part := 0, progress := Progression.ofNat 0 }) _ heard

theorem advance_reports {j : Job F} (heard : j.observed = true) (x : F) :
    (j.advance x).reports = j.reports ++ [j.overall x] :=
  report_reports (j := { j with progress := j.overall x }) _ heard

end Job

instance : Progression ℚ where
  ofNat n := n
  add := (· + ·)
  div := (· / ·)
  lt x y := x < y

namespace Progression

theorem clamp_eq (x : ℚ) : clamp x = max 0 (min x 1) := by
  simp only [clamp, ofNat, lt, Nat.cast_zero, Nat.cast_one, decide_eq_true_eq, max_def, min_def]
  split_ifs <;> linarith

theorem clamp_nonneg (x : ℚ) : 0 ≤ clamp x := by
  rw [clamp_eq]
  exact le_max_left _ _

theorem clamp_le_one (x : ℚ) : clamp x ≤ 1 := by
  rw [clamp_eq]
  exact max_le zero_le_one (min_le_right _ _)

theorem clamp_of_mem {x : ℚ} (low : 0 ≤ x) (high : x ≤ 1) : clamp x = x := by
  rw [clamp_eq, min_eq_left high, max_eq_right low]

@[simp] theorem clamp_zero : clamp (0 : ℚ) = 0 := clamp_of_mem le_rfl zero_le_one

theorem clamp_of_one_le {x : ℚ} (complete : 1 ≤ x) : clamp x = 1 := by
  rw [clamp_eq, min_eq_right complete, max_eq_right zero_le_one]

theorem clamp_mono {x y : ℚ} (le : x ≤ y) : clamp x ≤ clamp y := by
  rw [clamp_eq, clamp_eq]
  exact max_le_max_left 0 (min_le_min_right 1 le)

end Progression

inductive Count
  | start (parts : Nat)
  | nextPart
  | advance (fraction : ℚ)
  deriving DecidableEq

namespace Count

/-- The fraction does not go back from one step to the next within a part. -/
def Forward : Count → Count → Prop
  | .advance x, .advance y => x ≤ y
  | _, _ => True

/-- What may follow the start of a job over this many parts. -/
structure Stretch (parts : Nat) (steps : List Count) : Prop where
  unbroken : ∀ n, .start n ∉ steps
  fitting : steps.count .nextPart ≤ max parts 1 - 1
  forward : steps.IsChain Forward

end Count

namespace Job

open Progression

def count (j : Job ℚ) : Count → Job ℚ
  | .start parts => j.start parts
  | .nextPart => j.nextPart
  | .advance fraction => j.advance fraction

def counted (j : Job ℚ) (steps : List Count) : Job ℚ := steps.foldl count j

theorem counted_cons (j : Job ℚ) (step : Count) (steps : List Count) :
    j.counted (step :: steps) = (j.count step).counted steps := rfl

theorem counted_append (j : Job ℚ) (steps more : List Count) :
    j.counted (steps ++ more) = (j.counted steps).counted more := List.foldl_append

theorem overall_eq {j : Job ℚ} (begun : j.part < j.parts) (x : ℚ) :
    j.overall x = (j.part + clamp x) / j.parts := by
  have parts : max j.parts 1 = j.parts := by omega
  have positive : (0 : ℚ) < j.parts := by exact_mod_cast (show 0 < j.parts by omega)
  have nonneg : (0 : ℚ) ≤ j.part + clamp x := add_nonneg (Nat.cast_nonneg _) (clamp_nonneg x)
  have within : (j.part : ℚ) + clamp x ≤ j.parts :=
    calc (j.part : ℚ) + clamp x ≤ j.part + 1 := by linarith [clamp_le_one x]
      _ ≤ j.parts := by exact_mod_cast begun
  unfold overall
  rw [parts]
  exact clamp_of_mem (div_nonneg nonneg positive.le) ((div_le_one positive).mpr within)

theorem overall_mono {j : Job ℚ} (begun : j.part < j.parts) {x y : ℚ} (le : clamp x ≤ clamp y) :
    j.overall x ≤ j.overall y := by
  rw [overall_eq begun, overall_eq begun]
  gcongr

theorem overall_le_later {j k : Job ℚ} (same : k.parts = j.parts) (later : j.part < k.part)
    (begun : k.part < k.parts) (x y : ℚ) : j.overall x ≤ k.overall y := by
  rw [overall_eq (by omega), overall_eq begun, same]
  have parts : (j.part : ℚ) + 1 ≤ k.part := by exact_mod_cast later
  have le : (j.part : ℚ) + clamp x ≤ k.part + clamp y := by
    linarith [clamp_le_one x, clamp_nonneg y]
  gcongr

structure InRange (j : Job ℚ) : Prop where
  nonneg : 0 ≤ j.progress
  le_one : j.progress ≤ 1

theorem InRange.count {j : Job ℚ} (inRange : j.InRange) (step : Count) : (j.count step).InRange := by
  cases step with
  | start parts =>
    have progress : (j.count (.start parts)).progress = 0 := report_progress _ _
    exact ⟨progress.ge, progress.trans_le zero_le_one⟩
  | nextPart =>
    have progress : (j.count .nextPart).progress = j.progress := nextPart_progress j
    exact ⟨progress ▸ inRange.nonneg, progress ▸ inRange.le_one⟩
  | advance fraction =>
    have progress : (j.count (.advance fraction)).progress = j.overall fraction := report_progress _ _
    exact ⟨progress ▸ clamp_nonneg _, progress ▸ clamp_le_one _⟩

theorem InRange.counted {j : Job ℚ} (inRange : j.InRange) (steps : List Count) :
    (j.counted steps).InRange := by
  induction steps generalizing j with
  | nil => exact inRange
  | cons step steps ih => exact ih (inRange.count step)

theorem start_begun (j : Job ℚ) (n : Nat) : (j.start n).part < (j.start n).parts := by
  simp [start]

theorem count_begun {j : Job ℚ} (begun : j.part < j.parts) (step : Count) :
    (j.count step).part < (j.count step).parts := by
  cases step with
  | start parts => exact start_begun j parts
  | nextPart =>
    rw [count, nextPart_part begun, nextPart_parts]
    omega
  | advance fraction => simpa [count, advance] using begun

theorem counted_begun {j : Job ℚ} (begun : j.part < j.parts) (steps : List Count) :
    (j.counted steps).part < (j.counted steps).parts := by
  induction steps generalizing j with
  | nil => exact begun
  | cons step steps ih => exact ih (count_begun begun step)

theorem begun_of_start_mem {steps : List Count} {n : Nat} (started : .start n ∈ steps) (j : Job ℚ) :
    (j.counted steps).part < (j.counted steps).parts := by
  obtain ⟨before, after, rfl⟩ := List.append_of_mem started
  rw [counted_append]
  exact counted_begun (start_begun _ n) after

theorem counted_observed (j : Job ℚ) (steps : List Count) : (j.counted steps).observed = j.observed := by
  induction steps generalizing j with
  | nil => rfl
  | cons step steps ih =>
    have each : (j.count step).observed = j.observed := by
      cases step <;> simp [count, start, advance]
    exact (ih _).trans each

theorem counted_told {j : Job ℚ} (heard : j.observed = true) (steps : List Count) :
    ∃ told, (j.counted steps).reports = j.reports ++ told := by
  induction steps generalizing j with
  | nil => exact ⟨[], (List.append_nil _).symm⟩
  | cons step steps ih =>
    obtain ⟨told, reports⟩ := ih (j := j.count step) ((counted_observed j [step]).trans heard)
    cases step with
    | start n => exact ⟨0 :: told, reports.trans (by simp [count, start_reports heard]; rfl)⟩
    | nextPart => exact ⟨told, reports.trans (by simp [count])⟩
    | advance x => exact ⟨j.overall x :: told, reports.trans (by simp [count, advance_reports heard])⟩

theorem counted_part {j : Job ℚ} (begun : j.part < j.parts) {steps : List Count}
    (unbroken : ∀ n, .start n ∉ steps) :
    (j.counted steps).parts = j.parts ∧
      (j.counted steps).part = min (j.part + steps.count .nextPart) (j.parts - 1) := by
  induction steps generalizing j with
  | nil => exact ⟨rfl, by simp only [counted, List.foldl_nil, List.count_nil]; omega⟩
  | cons step steps ih =>
    have rest (n : Nat) : .start n ∉ steps := fun mem => unbroken n (List.mem_cons_of_mem _ mem)
    obtain ⟨parts, part⟩ := ih (count_begun begun step) rest
    rw [counted_cons, parts, part]
    cases step with
    | start n => exact absurd List.mem_cons_self (unbroken n)
    | nextPart =>
      rw [count, nextPart_parts, nextPart_part begun, List.count_cons_self]
      exact ⟨rfl, by omega⟩
    | advance x => simp [count, advance]

/-- From a part on in which the fraction `x` was reached, nothing smaller is told than for `x`. -/
theorem told_forward {j : Job ℚ} (heard : j.observed = true) (begun : j.part < j.parts)
    {steps : List Count} (unbroken : ∀ n, .start n ∉ steps)
    (fitting : j.part + steps.count .nextPart < j.parts) (forward : steps.IsChain Count.Forward) {x : ℚ}
    (onward : ∀ y, steps.head? = some (.advance y) → clamp x ≤ clamp y) :
    ∃ told, (j.counted steps).reports = j.reports ++ told ∧
      (j.overall x :: told).Pairwise (· ≤ ·) := by
  induction steps generalizing j x with
  | nil => exact ⟨[], (List.append_nil _).symm, List.pairwise_singleton _ _⟩
  | cons step steps ih =>
    have rest (n : Nat) : .start n ∉ steps := fun mem => unbroken n (List.mem_cons_of_mem _ mem)
    cases step with
    | start n => exact absurd List.mem_cons_self (unbroken n)
    | nextPart =>
      rw [List.count_cons_self] at fitting
      have part : j.nextPart.part = j.part + 1 := by rw [nextPart_part begun]; omega
      have begun' : j.nextPart.part < j.nextPart.parts := by rw [nextPart_parts]; omega
      -- Behind a move any fraction may come first, and none counts for less than nothing
      obtain ⟨told, reports, sorted⟩ := ih (j := j.nextPart) (x := 0) (by simpa using heard) begun' rest
        (by rw [nextPart_parts]; omega) forward.tail
        (fun y _ => clamp_zero.trans_le (clamp_nonneg y))
      have later : j.overall x ≤ j.nextPart.overall 0 :=
        overall_le_later (nextPart_parts j) (by omega) begun' x 0
      rw [nextPart_reports] at reports
      refine ⟨told, reports, List.pairwise_cons.mpr ⟨fun v mem => ?_, sorted.of_cons⟩⟩
      exact later.trans (List.rel_of_pairwise_cons sorted mem)
    | advance y =>
      have same : (j.advance y).overall y = j.overall y := by simp [overall, advance]
      have le : j.overall x ≤ j.overall y := overall_mono begun (onward y rfl)
      obtain ⟨told, reports, sorted⟩ := ih (j := j.advance y) (x := y) (by simpa [advance] using heard)
        (by simpa [advance] using begun) rest (by simpa [advance] using fitting) forward.tail
        (fun z next => by
          obtain ⟨more, rfl⟩ := List.head?_eq_some_iff.mp next
          exact clamp_mono (List.isChain_cons_cons.mp forward).1)
      rw [same] at sorted
      refine ⟨j.overall y :: told, ?_, List.pairwise_cons.mpr ⟨fun v mem => ?_, sorted⟩⟩
      · rw [counted_cons, count, reports, advance_reports heard, List.append_assoc, List.singleton_append]
      · rcases List.mem_cons.mp mem with rfl | mem
        · exact le
        · exact le.trans (List.rel_of_pairwise_cons sorted mem)

theorem counted_start (j : Job ℚ) (n : Nat) (steps : List Count) :
    j.counted (.start n :: steps) = (j.start n).counted steps := rfl

@[simp] theorem start_parts (j : Job ℚ) (n : Nat) : (j.start n).parts = max n 1 := by simp [start]

@[simp] theorem start_part (j : Job ℚ) (n : Nat) : (j.start n).part = 0 := by simp [start]

@[simp] theorem start_observed (j : Job ℚ) (n : Nat) : (j.start n).observed = j.observed := by
  simp [start]

theorem stretch_told {j : Job ℚ} (heard : j.observed = true) {n : Nat} {stretch : List Count}
    (fair : Count.Stretch n stretch) :
    ∃ told, (j.counted (.start n :: stretch)).reports = j.reports ++ told ∧
      told.Pairwise (· ≤ ·) := by
  obtain ⟨told, reports, sorted⟩ := told_forward (j := j.start n) (x := 0) (by simpa using heard)
    (start_begun j n) fair.unbroken (by have fitting := fair.fitting; simp; omega) fair.forward
    (fun y _ => clamp_zero.trans_le (clamp_nonneg y))
  have nothing : (j.start n).overall 0 = 0 := by
    simp [overall_eq (start_begun j n)]
  rw [nothing] at sorted
  refine ⟨0 :: told, ?_, sorted⟩
  rw [counted_start, reports, start_reports heard, List.append_assoc]
  rfl

theorem complete_told {j : Job ℚ} (heard : j.observed = true) {n : Nat} {stretch : List Count}
    (unbroken : ∀ m, .start m ∉ stretch) (last : max n 1 - 1 ≤ stretch.count .nextPart) {x : ℚ}
    (complete : 1 ≤ x) :
    (j.counted (.start n :: stretch ++ [.advance x])).reports =
      (j.counted (.start n :: stretch)).reports ++ [1] := by
  have begun := counted_begun (start_begun j n) stretch
  obtain ⟨parts, part⟩ := counted_part (start_begun j n) unbroken
  rw [← counted_start] at begun parts part
  rw [start_part, start_parts] at part
  have whole : (j.counted (.start n :: stretch)).part + 1 = (j.counted (.start n :: stretch)).parts := by
    rw [part, parts, start_parts]
    omega
  have all : (j.counted (.start n :: stretch)).overall x = 1 := by
    rw [overall_eq begun, clamp_of_one_le complete, ← whole, Nat.cast_add_one]
    exact div_self (by positivity)
  rw [counted_append, ← all]
  exact advance_reports ((counted_observed j _).trans heard) x

theorem overall_le_moved {k : Job ℚ} (earlier : k.part + 1 < k.parts) {between : List Count}
    (unbroken : ∀ m, .start m ∉ between) (moved : .nextPart ∈ between) (x y : ℚ) :
    k.overall x ≤ ((k.advance x).counted between).overall y := by
  have sameParts : (k.advance x).parts = k.parts := report_parts _ _
  have samePart : (k.advance x).part = k.part := report_part _ _
  have begun : (k.advance x).part < (k.advance x).parts := by omega
  obtain ⟨parts, part⟩ := counted_part begun unbroken
  have moves : 0 < between.count .nextPart := List.count_pos_iff.mpr moved
  exact overall_le_later (parts.trans sameParts) (by omega) (counted_begun begun between) x y

theorem earlier_told {j : Job ℚ} (heard : j.observed = true) {n : Nat} {before between : List Count}
    (unbroken : ∀ m, .start m ∉ before ++ between) (earlier : before.count .nextPart + 1 < max n 1)
    (moved : .nextPart ∈ between) (x y : ℚ) :
    ∃ a told b, (j.counted (.start n :: before ++ .advance x :: between ++ [.advance y])).reports =
      (j.counted (.start n :: before)).reports ++ a :: told ++ [b] ∧ a ≤ b := by
  obtain ⟨parts, part⟩ := counted_part (start_begun j n)
    fun i mem => unbroken i (List.mem_append_left between mem)
  have heardBefore := (counted_observed j (.start n :: before)).trans heard
  rw [← counted_start, start_parts] at parts part
  rw [start_part] at part
  generalize before_eq : j.counted (.start n :: before) = k at *
  have heardThen : (k.advance x).observed = true := (counted_observed k [.advance x]).trans heardBefore
  obtain ⟨told, reports⟩ := counted_told heardThen between
  have within : k.part + 1 < k.parts := by omega
  have le := overall_le_moved within (fun i mem => unbroken i (List.mem_append_right before mem))
    moved x y
  refine ⟨k.overall x, told, ((k.advance x).counted between).overall y, ?_, le⟩
  have run : j.counted (.start n :: before ++ .advance x :: between ++ [.advance y]) =
      ((k.advance x).counted between).advance y := by
    rw [counted_append, counted_append, before_eq]
    rfl
  rw [run, advance_reports ((counted_observed _ between).trans heardThen), reports,
    advance_reports heardBefore]
  simp

/-- Progress stays in range whatever steps are taken. From one start to the next the listener
hears it move forward, the end of the last part as the whole, and no part as more than anything
behind it. -/
theorem progress_moves_forward :
    (∀ (observed : Bool) (steps : List Count),
      let j := (create observed).counted steps
      0 ≤ j.progress ∧ j.progress ≤ 1 ∧
        ((∃ n, .start n ∈ steps) → 1 ≤ j.parts ∧ j.part < j.parts)) ∧
    ∀ j : Job ℚ, j.observed = true → ∀ n,
      (∀ stretch, Count.Stretch n stretch →
        ∃ told, (j.counted (.start n :: stretch)).reports = j.reports ++ told ∧
          told.Pairwise (· ≤ ·)) ∧
      (∀ stretch x, (∀ m, .start m ∉ stretch) → max n 1 - 1 ≤ stretch.count .nextPart → 1 ≤ x →
        (j.counted (.start n :: stretch ++ [.advance x])).reports =
          (j.counted (.start n :: stretch)).reports ++ [1]) ∧
      ∀ before x between y, (∀ m, .start m ∉ before ++ between) →
        before.count .nextPart + 1 < max n 1 → .nextPart ∈ between →
        ∃ a told b, (j.counted (.start n :: before ++ .advance x :: between ++ [.advance y])).reports =
          (j.counted (.start n :: before)).reports ++ a :: told ++ [b] ∧ a ≤ b := by
  refine ⟨fun observed steps => ?_, fun j heard n => ⟨fun _ fair => stretch_told heard fair,
    fun _ _ unbroken last complete => complete_told heard unbroken last complete,
    fun _ x _ y unbroken earlier moved => earlier_told heard unbroken earlier moved x y⟩⟩
  have fresh : (create observed : Job ℚ).InRange := ⟨le_rfl, zero_le_one⟩
  have inRange := fresh.counted steps
  refine ⟨inRange.nonneg, inRange.le_one, fun ⟨n, started⟩ => ?_⟩
  have begun := begun_of_start_mem started (create observed)
  exact ⟨by omega, begun⟩

theorem two_parts_counted :
    let stretch : List Count := [.advance (1 / 2), .nextPart, .advance 0]
    let j : Job ℚ := create true
    let done := j.counted (.start 2 :: stretch)
    (0 ≤ done.progress ∧ done.progress ≤ 1 ∧ 1 ≤ done.parts ∧ done.part < done.parts) ∧
      (∃ told, done.reports = j.reports ++ told ∧ told.Pairwise (· ≤ ·)) ∧
      (j.counted (.start 2 :: stretch ++ [.advance 3])).reports = done.reports ++ [1] ∧
      ∃ a told b, (j.counted (.start 2 :: [] ++ .advance (1 / 2) :: [.nextPart] ++ [.advance 0])).reports =
        (j.counted [.start 2]).reports ++ a :: told ++ [b] ∧ a ≤ b := by
  intro stretch j done
  have fair : Count.Stretch 2 stretch := ⟨by simp [stretch], by decide, by simp [stretch, Count.Forward]⟩
  have range := progress_moves_forward.1 true (.start 2 :: stretch)
  have told := progress_moves_forward.2 j rfl 2
  exact ⟨⟨range.1, range.2.1, range.2.2 ⟨2, by simp⟩⟩, told.1 stretch fair,
    told.2.1 stretch 3 fair.unbroken (by decide) (by norm_num),
    told.2.2 [] (1 / 2) [.nextPart] 0 (by simp) (by decide) (by simp)⟩

example : ((create true).counted
    [.start 2, .advance (1 / 2), .nextPart, .advance (-1), .advance 3]).reports = [0, 1 / 4, 1 / 2, 1] := by
  decide +kernel

end Job

end MidiStorage
