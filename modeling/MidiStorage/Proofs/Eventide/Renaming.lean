import MidiStorage.Eventide.Presets
import MidiStorage.Proofs.Eventide.Dump

namespace MidiStorage.Eventide

open Text

/-- A printable ASCII text that is neither a path nor looks like one. -/
structure BareName (name : String) : Prop where
  nonempty : name.toList ≠ []
  printable : ∀ c ∈ name.toList, 0x20 ≤ c.toNat ∧ c.toNat < 0x7F
  noSlash : '/' ∉ name.toList
  noColon : ':' ∉ name.toList

instance (name : String) : Decidable (BareName name) :=
  have : Decidable (∀ c ∈ name.toList, 0x20 ≤ c.toNat ∧ c.toNat < 0x7F) :=
    List.decidableBAll _ name.toList
  decidable_of_iff (name.toList ≠ [] ∧ (∀ c ∈ name.toList, 0x20 ≤ c.toNat ∧ c.toNat < 0x7F) ∧
    '/' ∉ name.toList ∧ ':' ∉ name.toList)
    ⟨fun ⟨a, b, c, d⟩ => ⟨a, b, c, d⟩, fun ⟨a, b, c, d⟩ => ⟨a, b, c, d⟩⟩

def Preset.named (p : Preset) (name : String) : Preset :=
  { p with name := String.ofList (name.toList.take Presets.maxNameLength) }

namespace Preset

variable {p : Preset} {name : String}

@[simp] theorem firstLine_named (p : Preset) (name : String) : (p.named name).firstLine = p.firstLine := rfl

theorem mem_named {c : Char} (member : c ∈ (p.named name).name.toList) : c ∈ name.toList := by
  have cut : (p.named name).name.toList = name.toList.take Presets.maxNameLength := String.toList_ofList
  rw [cut] at member
  exact List.mem_of_mem_take member

theorem mem_lines_named {line : String} (member : line ∈ (p.named name).lines) :
    line ∈ p.lines ∨ line = (p.named name).name := by
  rcases List.mem_append.mp member with old | new
  · exact Or.inl (List.mem_append_left _ old)
  · exact Or.inr (List.mem_singleton.mp new)

theorem Legible.named (legible : p.Legible) (fits : ∀ c ∈ name.toList, isControl c = false) :
    (p.named name).Legible := by
  constructor
  · intro line member
    rcases mem_lines_named member with old | rfl
    · exact legible.unbroken line old
    · intro broken
      have isReturn : '\r' ∈ (p.named name).name.toList := broken.subset (List.mem_cons_self ..)
      exact absurd (fits _ (mem_named isReturn)) (by decide)
  · intro line member
    rcases mem_lines_named member with old | rfl
    · exact legible.noNul line old
    · intro isNul
      exact absurd (fits _ (mem_named isNul)) (by decide)

theorem Plain.named (plain : p.Plain) (fits : ∀ c ∈ name.toList, isControl c = false)
    (ascii : IsAscii (p.named name).name.toList) : (p.named name).Plain := by
  have legible := plain.legible.named fits
  refine ⟨?_, legible.unbroken, legible.noNul, plain.blank⟩
  intro line member
  rcases mem_lines_named member with old | rfl
  · exact plain.ascii line old
  · exact ascii

end Preset

section Slashless

variable {name : String} (component : '/' ∉ name.toList)

include component

theorem split_slashless : DevicePath.split name = .error (.invalidPath name) := by
  unfold DevicePath.split
  cases chars : name.toList with
  | nil => rfl
  | cons c cs =>
    have other : c ≠ '/' := by
      rintro rfl
      exact component (by rw [chars]; exact List.mem_cons_self ..)
    split
    · rename_i rest same
      cases same
      exact absurd rfl other
    · rfl

theorem newName_slashless (alone : ∀ id label, DevicePath.idName name ≠ .ok (id, some label)) :
    Presets.newName name = name := by
  have kept : name.toList.dropWhile (· = '/') = name.toList := by
    cases chars : name.toList with
    | nil => rfl
    | cons c cs =>
      have other : c ≠ '/' := by
        rintro rfl
        exact component (by rw [chars]; exact List.mem_cons_self ..)
      rw [List.dropWhile_cons_of_neg (by simpa using other)]
  unfold Presets.newName
  split
  · rename_i id label parsed
    exact absurd parsed (alone id label)
  · rw [kept, String.ofList_toList]

end Slashless

namespace BareName

variable {name : String}

theorem newName_eq (bare : BareName name) : Presets.newName name = name := by
  refine newName_slashless bare.noSlash ?_
  intro id label parsed
  have last : lastPart '/' name.toList = name.toList := lastPart_of_not_mem bare.noSlash
  have whole : cut ':' name.toList = (name.toList, none) := cut_of_not_mem bare.noColon
  unfold DevicePath.idName at parsed
  rw [last, whole] at parsed
  dsimp only at parsed
  split at parsed <;> cases parsed

theorem fits (bare : BareName name) :
    (name.toList.isEmpty || name.toList.any isControl) = false := by
  rw [Bool.or_eq_false_iff, List.isEmpty_eq_false_iff, List.any_eq_false]
  refine ⟨bare.nonempty, ?_⟩
  intro c member
  have bounds := bare.printable c member
  unfold isControl
  simp only [Bool.or_eq_true, Bool.and_eq_true, decide_eq_true_eq]
  omega

theorem split_eq (bare : BareName name) : DevicePath.split name = .error (.invalidPath name) :=
  split_slashless bare.noSlash

theorem plain_named (bare : BareName name) {p : Preset} (plain : p.Plain) : (p.named name).Plain := by
  have fits := bare.fits
  rw [Bool.or_eq_false_iff, List.any_eq_false] at fits
  refine plain.named (fun c member => by simpa using fits.2 c member) ?_
  intro c member
  have bounds := bare.printable c (Preset.mem_named member)
  omega

end BareName

end MidiStorage.Eventide
