import Mathlib.Data.List.TakeWhile
import Mathlib.Tactic.Common
import MidiStorage.Eventide.Preset

namespace MidiStorage.Eventide

theorem dropWhile_eq_nil_iff {body : Bytes} {b : UInt8} :
    body.dropWhile (· ≠ b) = [] ↔ b ∉ body := by
  rw [List.dropWhile_eq_nil_iff]
  constructor
  · intro all member
    simpa using all b member
  · intro absent c member
    rw [decide_eq_true_eq]
    rintro rfl
    exact absent member

/-- A dump is taken exactly if its length is within the window, its header and code are those of a
dump of any pedal, and there is a blank behind them; what is sent keeps all from the blank on. -/
theorem retarget_ok_iff {data message : Bytes} {device : UInt8} {id : Nat} :
    retarget data device id = .ok message ↔
      minLength < data.length ∧ data.length ≤ maxLength ∧
      ∃ d body, data = 0xF0 :: 0x1C :: 0x70 :: d :: 0x49 :: body ∧ 0x20 ∈ body ∧
        message = 0xF0 :: 0x1C :: 0x70 :: device :: 0x49 :: slotTag id ++
          body.dropWhile (· ≠ 0x20) := by
  fun_cases retarget data device id with
  | case1 outside =>
    simp only [reduceCtorEq, false_iff]
    omega
  | case2 d body noBlank inside =>
    simp only [reduceCtorEq, false_iff]
    rintro ⟨-, -, d', body', same, blank, -⟩
    cases same
    exact dropWhile_eq_nil_iff.mp noBlank blank
  | case3 d body b rest tail inside =>
    have blank : 0x20 ∈ body := by
      by_contra absent
      rw [dropWhile_eq_nil_iff.mpr absent] at tail
      cases tail
    constructor
    · intro encoded
      cases encoded
      exact ⟨by omega, by omega, d, body, rfl, blank, by rw [tail]⟩
    · rintro ⟨-, -, d', body', same, -, rfl⟩
      cases same
      rw [tail]
  | case4 _ inside other =>
    simp only [reduceCtorEq, false_iff]
    rintro ⟨-, -, d, body, same, -⟩
    exact other d body same

theorem retarget_ne_nil {data message : Bytes} {device : UInt8} {id : Nat}
    (encoded : retarget data device id = .ok message) : message ≠ [] := by
  obtain ⟨-, -, d, body, -, -, rfl⟩ := retarget_ok_iff.mp encoded
  exact List.cons_ne_nil _ _

end MidiStorage.Eventide
