import Mathlib.Data.List.TakeWhile
import Mathlib.Tactic.Common
import MidiStorage.DevicePath

namespace MidiStorage

namespace Text.Decimal

theorem toList_toString (n : Nat) : (toString n).toList = Nat.toDigits 10 n := Nat.toList_repr

theorem isDigit_iff {c : Char} : isDigit c = true ↔ 0x30 ≤ c.toNat ∧ c.toNat ≤ 0x39 := by
  rw [isDigit, Bool.and_eq_true, decide_eq_true_eq, decide_eq_true_eq]
  exact Iff.rfl

theorem isDigit_of_mem {n : Nat} {c : Char} (member : c ∈ (toString n).toList) :
    isDigit c = true := by
  rw [toList_toString] at member
  have digit := Nat.isDigit_of_mem_toDigits (by decide) (by decide) member
  rw [Char.isDigit, Bool.and_eq_true, decide_eq_true_eq, decide_eq_true_eq] at digit
  rw [isDigit, Bool.and_eq_true, decide_eq_true_eq, decide_eq_true_eq]
  exact digit

theorem toString_ne_nil (n : Nat) : (toString n).toList ≠ [] := by
  rw [toList_toString]
  exact Nat.toDigits_ne_nil

theorem value_toString (n : Nat) : value (toString n).toList = n := by
  rw [toList_toString]
  exact Nat.ofDigitChars_ten_toDigits

theorem readDigits_toString (n : Nat) : readDigits (toString n).toList = some n := by
  have digits : (toString n).toList.all isDigit = true := by
    rw [List.all_eq_true]
    exact fun c member => isDigit_of_mem member
  have some : (!(toString n).toList.isEmpty) = true := by
    rw [Bool.not_eq_true', List.isEmpty_eq_false_iff]
    exact toString_ne_nil n
  rw [readDigits, some, digits, value_toString]
  rfl

theorem not_mem_toString {n : Nat} {c : Char} (other : isDigit c = false) :
    c ∉ (toString n).toList := by
  intro member
  rw [isDigit_of_mem member] at other
  cases other

theorem readBelow_toString {bound n : Nat} (below : n < bound) :
    readBelow bound (toString n).toList = some n := by
  have read := readDigits_toString n
  have unsigned : '+' ∉ (toString n).toList := not_mem_toString (by decide)
  cases digits : (toString n).toList with
  | nil => exact absurd digits (toString_ne_nil n)
  | cons c cs =>
    rw [digits] at read unsigned
    have plain : c ≠ '+' := by
      rintro rfl
      exact unsigned (List.mem_cons_self ..)
    simp [readBelow, plain, read, below]

end Text.Decimal

namespace Text

theorem decide_ne_of_not_mem {α : Type} [DecidableEq α] {separator : α} {front : List α}
    (free : separator ∉ front) : ∀ a ∈ front, decide (a ≠ separator) = true := by
  intro a member
  rw [decide_eq_true_eq]
  rintro rfl
  exact free member

theorem span_append {α : Type} {p : α → Bool} {front behind : List α} (kept : ∀ a ∈ front, p a = true)
    (ends : ∀ a ∈ behind.head?, p a = false) :
    (front ++ behind).takeWhile p = front ∧ (front ++ behind).dropWhile p = behind := by
  rw [List.takeWhile_append_of_pos kept, List.dropWhile_append_of_pos kept]
  cases behind with
  | nil => simp
  | cons a behind =>
    have other := ends a rfl
    simp [other]

theorem lastPart_of_not_mem {separator : Char} {cs : List Char} (free : separator ∉ cs) :
    lastPart separator cs = cs := by
  have kept := decide_ne_of_not_mem (mt List.mem_reverse.mp free)
  have whole : cs.reverse.takeWhile (· ≠ separator) = cs.reverse := List.takeWhile_eq_self_iff.mpr kept
  rw [lastPart, whole, List.reverse_reverse]

theorem lastPart_append {separator : Char} (before : List Char) {last : List Char}
    (free : separator ∉ last) : lastPart separator (before ++ separator :: last) = last := by
  have kept := decide_ne_of_not_mem (mt List.mem_reverse.mp free)
  rw [lastPart, List.reverse_append, List.reverse_cons, List.append_assoc,
    List.takeWhile_append_of_pos kept]
  simp

theorem cut_of_not_mem {separator : Char} {cs : List Char} (free : separator ∉ cs) :
    cut separator cs = (cs, none) := by
  have kept := decide_ne_of_not_mem free
  have whole : cs.takeWhile (· ≠ separator) = cs := List.takeWhile_eq_self_iff.mpr kept
  have nothing : cs.dropWhile (· ≠ separator) = [] := List.dropWhile_eq_nil_iff.mpr kept
  simp only [cut, whole, nothing]

end Text

namespace DevicePath

theorem id_lt {path : String} {n : Nat} (parsed : id path = .ok n) : n < idBound := by
  cases read : Text.Decimal.readBelow idBound (Text.cut ':' (Text.lastPart '/' path.toList)).1 with
  | none =>
    simp only [id, idName, read] at parsed
    cases parsed
  | some m =>
    simp only [id, idName, read] at parsed
    cases parsed
    exact of_decide_eq_true (Option.mem_filter_iff.mp read).2

theorem id_behind (front : String) {n : Nat} (bound : n < idBound) :
    id (front ++ "/" ++ toString n) = .ok n := by
  have noSlash : '/' ∉ (toString n).toList := Text.Decimal.not_mem_toString (by decide)
  have noColon : ':' ∉ (toString n).toList := Text.Decimal.not_mem_toString (by decide)
  have last : Text.lastPart '/' (front ++ "/" ++ toString n).toList = (toString n).toList := by
    rw [String.append_assoc, String.toList_append, String.toList_append]
    exact Text.lastPart_append front.toList noSlash
  simp only [id, idName, last, Text.cut_of_not_mem noColon,
    Text.Decimal.readBelow_toString bound]
  rfl

theorem id_slot {n : Nat} (bound : n < idBound) : id ("/" ++ toString n) = .ok n := id_behind "" bound

end DevicePath

end MidiStorage
