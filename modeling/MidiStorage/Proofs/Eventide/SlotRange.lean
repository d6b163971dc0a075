import MidiStorage.Eventide.Presets
import MidiStorage.Proofs.Text.Integer

namespace MidiStorage.Eventide

def PedalKind.range (kind : PedalKind) (low high : Int) : Int × Int :=
  match kind with
  | .h9 => (low, high)
  | .factor => (2 * low, 2 * (high + 1))

structure LegalRange (range : Int × Int) : Prop where
  first_nonneg : 0 ≤ range.1
  first_lt : range.1 < DevicePath.idBound
  ordered : range.1 ≤ range.2
  size_lt : range.2 - range.1 < DevicePath.idBound

theorem presetBounds_cases (kind : PedalKind) (low high : Int) :
    presetBounds kind low high = .ok (kind.range low high) ∨
      (∃ reason, presetBounds kind low high = .error (.badMessage reason)) ∧
        ¬ LegalRange (kind.range low high) := by
  cases kind with
  | h9 => exact .inl rfl
  | factor =>
    unfold presetBounds factorRange?
    by_cases fits : fitsWord (2 * low) && fitsWord (high + 1) && fitsWord (2 * (high + 1))
    · rw [if_pos fits]
      exact .inl rfl
    · rw [if_neg fits]
      refine .inr ⟨⟨_, rfl⟩, ?_⟩
      rintro ⟨first_nonneg, first_lt, ordered, size_lt⟩
      apply fits
      simp only [PedalKind.range, DevicePath.idBound] at first_nonneg first_lt ordered size_lt
      simp only [fitsWord, Bool.and_eq_true, decide_eq_true_eq]
      omega

theorem slotRange_cases (kind : PedalKind) (low high : Int) :
    (∃ first count : Nat, slotRange kind low high = .ok (first, count) ∧
        LegalRange (kind.range low high) ∧ first = (kind.range low high).1 ∧
        count = (kind.range low high).2 - (kind.range low high).1) ∨
      (∃ reason, slotRange kind low high = .error (.badMessage reason)) ∧
        ¬ LegalRange (kind.range low high) := by
  unfold slotRange
  rcases presetBounds_cases kind low high with bounds | ⟨⟨reason, bounds⟩, illegal⟩
  · rw [bounds]
    generalize kind.range low high = range
    obtain ⟨lo, hi⟩ := range
    dsimp only
    split_ifs with size first
    · refine .inr ⟨⟨_, rfl⟩, ?_⟩
      rintro ⟨first_nonneg, first_lt, ordered, size_lt⟩
      unfold DevicePath.idBound at first_lt size_lt
      simp only [fitsWord, Bool.or_eq_true, Bool.not_eq_true', Bool.and_eq_false_iff,
        decide_eq_true_eq, decide_eq_false_iff_not] at size
      omega
    · refine .inr ⟨⟨_, rfl⟩, ?_⟩
      rintro ⟨first_nonneg, first_lt, ordered, size_lt⟩
      unfold DevicePath.idBound at first_lt size_lt
      simp only [Bool.or_eq_true, decide_eq_true_eq] at first
      omega
    · simp only [Bool.or_eq_true, decide_eq_true_eq, not_or, Int.not_lt, Int.not_le] at size first
      have bound : DevicePath.idBound = 0x100000000 := rfl
      refine .inl ⟨_, _, rfl, ⟨first.1, ?_, ?_, ?_⟩, ?_, ?_⟩ <;> omega
  · rw [bounds]
    exact .inr ⟨⟨reason, rfl⟩, illegal⟩

end MidiStorage.Eventide
