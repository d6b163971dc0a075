import Mathlib.Data.List.Basic
import Mathlib.Tactic.Common
import MidiStorage.Text.Split

namespace MidiStorage.Text

variable {α : Type} [DecidableEq α]

/-- The lines between pairs of `a` and `b`; alone either of them belongs to its line. -/
def linesAt (a b : α) : List α → List (List α)
  | [] => [[]]
  | [c] => [[c]]
  | c :: d :: cs =>
    if c = a ∧ d = b then [] :: linesAt a b cs
    else (linesAt a b (d :: cs)).modifyHead (c :: ·)

section Lines

variable {a b : α} {line rest : List α}

theorem linesAt_cons {c : α} {cs : List α} (pairless : ¬ [a, b] <+: c :: cs) :
    linesAt a b (c :: cs) = (linesAt a b cs).modifyHead (c :: ·) := by
  cases cs with
  | nil => rfl
  | cons d cs =>
    apply if_neg
    rintro ⟨rfl, rfl⟩
    exact pairless (List.prefix_append [c, d] cs)

theorem linesAt_unbroken_append {first : List α} {others : List (List α)}
    (unbroken : ¬ [a, b] <:+: line) (seam : rest.head? ≠ some b)
    (behind : linesAt a b rest = first :: others) :
    linesAt a b (line ++ rest) = (line ++ first) :: others := by
  induction line with
  | nil => exact behind
  | cons c line ih =>
    have pairless : ¬ [a, b] <+: c :: (line ++ rest) := by
      intro pair
      obtain ⟨rfl, next⟩ := List.cons_prefix_cons.mp pair
      cases line with
      | nil =>
        obtain ⟨more, rfl⟩ := next
        exact seam rfl
      | cons d line =>
        obtain ⟨rfl, -⟩ := List.cons_prefix_cons.mp next
        exact unbroken (List.prefix_append [a, b] line).isInfix
    have tail : ¬ [a, b] <:+: line := fun pair => unbroken (pair.trans (List.suffix_cons c line).isInfix)
    rw [List.cons_append, linesAt_cons pairless, ih tail]
    rfl

theorem linesAt_unbroken (unbroken : ¬ [a, b] <:+: line) : linesAt a b line = [line] := by
  have seam : ([] : List α).head? ≠ some b := by simp
  have alone := linesAt_unbroken_append unbroken seam rfl
  rwa [List.append_nil] at alone

theorem unbroken_or_line (cs : List α) :
    ¬ [a, b] <:+: cs ∨ ∃ line rest, ¬ [a, b] <:+: line ∧ cs = line ++ a :: b :: rest := by
  induction cs with
  | nil => simp
  | cons c cs ih =>
    by_cases here : [a, b] <+: c :: cs
    · obtain ⟨rest, pair⟩ := here
      exact Or.inr ⟨[], rest, by simp, pair.symm⟩
    · rcases ih with unbroken | ⟨line, rest, unbroken, rfl⟩
      · left
        rw [List.infix_cons_iff, not_or]
        exact ⟨here, unbroken⟩
      · refine Or.inr ⟨c :: line, rest, ?_, rfl⟩
        rw [List.infix_cons_iff, not_or]
        exact ⟨fun front => here (front.trans (List.prefix_append (c :: line) _)), unbroken⟩

theorem broken_induction {motive : List α → Prop} (unbroken : ∀ cs, ¬ [a, b] <:+: cs → motive cs)
    (broken : ∀ line rest, ¬ [a, b] <:+: line → motive rest → motive (line ++ a :: b :: rest))
    (cs : List α) : motive cs := by
  induction size : cs.length using Nat.strongRecOn generalizing cs with
  | ind n ih =>
    subst size
    rcases unbroken_or_line (a := a) (b := b) cs with none | ⟨line, rest, front, rfl⟩
    · exact unbroken cs none
    · have shorter : rest.length < (line ++ a :: b :: rest).length := by
        rw [List.length_append, List.length_cons, List.length_cons]
        omega
      exact broken line rest front (ih _ shorter rest rfl)

variable (apart : a ≠ b)

include apart

theorem linesAt_line (unbroken : ¬ [a, b] <:+: line) (rest : List α) :
    linesAt a b (line ++ a :: b :: rest) = line :: linesAt a b rest := by
  have pair : linesAt a b (a :: b :: rest) = [] :: linesAt a b rest := if_pos ⟨rfl, rfl⟩
  have joined := linesAt_unbroken_append unbroken (by simpa using apart) pair
  rwa [List.append_nil] at joined

theorem exists_linesAt_append {first : List α} {others : List (List α)} (front : List α)
    (seam : rest.head? ≠ some b) (behind : linesAt a b rest = first :: others) :
    ∃ init last, linesAt a b front = init ++ [last] ∧
      linesAt a b (front ++ rest) = init ++ (last ++ first) :: others := by
  induction front using broken_induction (a := a) (b := b) with
  | unbroken front unbroken =>
    exact ⟨[], front, linesAt_unbroken unbroken, linesAt_unbroken_append unbroken seam behind⟩
  | broken line front unbroken ih =>
    obtain ⟨init, last, before, whole⟩ := ih
    refine ⟨line :: init, last, ?_, ?_⟩
    · rw [linesAt_line apart unbroken, before, List.cons_append]
    · rw [List.append_assoc, List.cons_append, List.cons_append, linesAt_line apart unbroken, whole,
        List.cons_append]

theorem of_mem_linesAt {cs : List α} (member : line ∈ linesAt a b cs) :
    line <:+: cs ∧ ¬ [a, b] <:+: line := by
  induction cs using broken_induction (a := a) (b := b) with
  | unbroken cs unbroken =>
    rw [linesAt_unbroken unbroken, List.mem_singleton] at member
    subst member
    exact ⟨List.infix_rfl, unbroken⟩
  | broken first cs unbroken ih =>
    rw [linesAt_line apart unbroken, List.mem_cons] at member
    rcases member with rfl | later
    · exact ⟨(List.prefix_append ..).isInfix, unbroken⟩
    · obtain ⟨inside, whole⟩ := ih later
      have behind : cs <:+ first ++ a :: b :: cs := ⟨first ++ [a, b], by simp⟩
      exact ⟨inside.trans behind.isInfix, whole⟩

theorem linesAt_ne_nil (cs : List α) : linesAt a b cs ≠ [] := by
  have seam : ([] : List α).head? ≠ some b := by simp
  obtain ⟨init, last, whole, -⟩ := exists_linesAt_append apart cs seam rfl
  simp [whole]

end Lines

theorem lines_eq (cs : List Char) : lines cs = linesAt '\r' '\n' cs := by
  fun_induction linesAt '\r' '\n' cs with
  | case1 => rfl
  | case2 => rw [lines.eq_3 _ _ (by simp), lines]
  | case3 c d cs pair ih =>
    obtain ⟨rfl, rfl⟩ := pair
    rw [lines, ih]
  | case4 c d cs pairless ih =>
    have later : ∀ behind, c = '\r' → d :: cs = '\n' :: behind → False := by
      intro behind isReturn next
      injection next with isFeed
      exact pairless ⟨isReturn, isFeed⟩
    rw [lines.eq_3 _ _ later, ih]
    cases cut : linesAt '\r' '\n' (d :: cs) with
    | nil => exact absurd cut (linesAt_ne_nil (by decide) _)
    | cons line rest => rfl

end MidiStorage.Text
