import MidiStorage.Proofs.Text.Numeral
import MidiStorage.Text.CharClass

namespace MidiStorage.Text.Decimal

variable {blank : Char → Bool}

/-- The integer that a text begins with, after blanks and at most one sign; `0` when there is
none. -/
def integer (blank : Char → Bool) (cs : List Char) : Int :=
  match cs.dropWhile blank with
  | '-' :: rest => -value (rest.takeWhile isDigit)
  | '+' :: rest => value (rest.takeWhile isDigit)
  | rest => value (rest.takeWhile isDigit)

inductive Sign : List Char → (Nat → Int) → Prop
  | none : Sign [] fun n => n
  | plus : Sign ['+'] fun n => n
  | minus : Sign ['-'] fun n => -n

def Shown (c : Char) : Prop := isDigit c = true ∨ c = '-' ∨ c = '+'

instance (c : Char) : Decidable (Shown c) := inferInstanceAs (Decidable (_ ∨ _ ∨ _))

theorem isBlank_of_shown {c : Char} (shown : Shown c) : isBlank c = false := by
  rcases shown with digit | rfl | rfl
  · obtain ⟨low, high⟩ := isDigit_iff.mp digit
    simp only [isBlank, Bool.or_eq_false_iff, Bool.and_eq_false_iff, decide_eq_false_iff_not,
      beq_eq_false_iff_ne]
    omega
  · decide
  · decide

theorem integer_written {blanks sign digits rest : List Char} {apply : Nat → Int}
    (skipped : ∀ c ∈ blanks, blank c = true) (signed : Sign sign apply)
    (shown : ∀ c, Shown c → blank c = false) (some : digits ≠ [])
    (all : ∀ c ∈ digits, isDigit c = true) (ends : ∀ c ∈ rest.head?, isDigit c = false) :
    integer blank (blanks ++ (sign ++ (digits ++ rest))) = apply (value digits) := by
  obtain ⟨d, ds, rfl⟩ := List.exists_cons_of_ne_nil some
  obtain ⟨taken, -⟩ := span_append all ends
  have shownMinus := shown '-' (.inr (.inl rfl))
  have shownPlus := shown '+' (.inr (.inr rfl))
  unfold integer
  rw [List.dropWhile_append_of_pos skipped]
  cases signed with
  | plus =>
    rw [List.singleton_append, List.dropWhile_cons_of_neg (by rw [shownPlus]; decide)]
    simp only [taken]
  | minus =>
    rw [List.singleton_append, List.dropWhile_cons_of_neg (by rw [shownMinus]; decide)]
    simp only [taken]
  | none =>
    have digit := all d (List.mem_cons_self ..)
    have shownDigit := shown d (.inl digit)
    rw [List.nil_append, List.cons_append, List.dropWhile_cons_of_neg (by rw [shownDigit]; decide)]
    rw [List.cons_append] at taken
    split
    · rename_i same
      obtain ⟨rfl, -⟩ := List.cons.inj same
      exact absurd digit (by decide)
    · rename_i same
      obtain ⟨rfl, -⟩ := List.cons.inj same
      exact absurd digit (by decide)
    · rw [taken]

/-- A text that an integer is written as: its sign, any number of zeros, and the decimal of its
size. -/
inductive Written : Int → List Char → Prop
  | intro {sign : List Char} {apply : Nat → Int} (signed : Sign sign apply) (zeros n : Nat) :
    Written (apply n) (sign ++ (List.replicate zeros '0' ++ (toString n).toList))

theorem value_zeros_append (zeros : Nat) (digits : List Char) :
    value (List.replicate zeros '0' ++ digits) = value digits := by
  induction zeros with
  | zero => rfl
  | succ zeros ih =>
    rw [List.replicate_succ, List.cons_append]
    exact ih

theorem isDigit_of_mem_zeros {zeros n : Nat} {c : Char}
    (member : c ∈ List.replicate zeros '0' ++ (toString n).toList) : isDigit c = true := by
  rcases List.mem_append.mp member with zero | digit
  · rw [List.eq_of_mem_replicate zero]
    decide
  · exact isDigit_of_mem digit

theorem Written.shown {n : Int} {text : List Char} (written : Written n text) : ∀ c ∈ text, Shown c := by
  cases written with
  | intro signed zeros n =>
    intro c member
    rcases List.mem_append.mp member with inSign | inDigits
    · cases signed with
      | none => cases inSign
      | plus => exact .inr (.inr (List.mem_singleton.mp inSign))
      | minus => exact .inr (.inl (List.mem_singleton.mp inSign))
    · exact .inl (isDigit_of_mem_zeros inDigits)

theorem integer_of_written {blanks text rest : List Char} {n : Int}
    (skipped : ∀ c ∈ blanks, blank c = true) (written : Written n text)
    (shown : ∀ c, Shown c → blank c = false) (ends : ∀ c ∈ rest.head?, isDigit c = false) :
    integer blank (blanks ++ (text ++ rest)) = n := by
  cases written with
  | @intro sign apply signed zeros n =>
    have some : List.replicate zeros '0' ++ (toString n).toList ≠ [] :=
      List.append_ne_nil_of_right_ne_nil _ (toString_ne_nil n)
    have read := integer_written skipped signed shown some (fun c => isDigit_of_mem_zeros) ends
    rwa [value_zeros_append, value_toString, ← List.append_assoc sign] at read

inductive Numbered (blank : Char → Bool) : List Char → Prop
  | intro {blanks sign rest : List Char} {apply : Nat → Int} {d : Char}
    (skipped : ∀ c ∈ blanks, blank c = true) (signed : Sign sign apply) (digit : isDigit d = true) :
    Numbered blank (blanks ++ (sign ++ d :: rest))

theorem not_numbered_nil : ¬ Numbered blank [] := by
  intro numbered
  generalize same : [] = cs at numbered
  cases numbered with
  | intro skipped signed digit => simp at same

theorem not_numbered_of_signs {first second : Char} (shown : ∀ c, Shown c → blank c = false)
    (sign : first = '-' ∨ first = '+') (again : second = '-' ∨ second = '+') (rest : List Char) :
    ¬ Numbered blank (first :: second :: rest) := by
  have other {c : Char} (sign : c = '-' ∨ c = '+') : ¬ isDigit c = true := by
    rcases sign with rfl | rfl <;> decide
  intro numbered
  generalize same : first :: second :: rest = cs at numbered
  cases numbered with
  | @intro blanks signs behind apply d skipped signed digit =>
    cases blanks with
    | cons c blanks =>
      obtain ⟨rfl, -⟩ := List.cons.inj same
      have visible := shown first (.inr sign)
      rw [skipped first List.mem_cons_self] at visible
      cases visible
    | nil =>
      cases signed with
      | none =>
        obtain ⟨rfl, -⟩ := List.cons.inj same
        exact other sign digit
      | plus =>
        obtain ⟨rfl, -⟩ := List.cons.inj (List.cons.inj same).2
        exact other again digit
      | minus =>
        obtain ⟨rfl, -⟩ := List.cons.inj (List.cons.inj same).2
        exact other again digit

theorem integer_of_not_numbered {cs : List Char} (numberless : ¬ Numbered blank cs) :
    integer blank cs = 0 := by
  have skipped : ∀ c ∈ cs.takeWhile blank, blank c = true := fun c => List.mem_takeWhile_imp
  have whole : cs = cs.takeWhile blank ++ cs.dropWhile blank := List.takeWhile_append_dropWhile.symm
  have none {sign rest : List Char} {apply : Nat → Int} (signed : Sign sign apply)
      (behind : cs.dropWhile blank = sign ++ rest) : rest.takeWhile isDigit = [] := by
    cases rest with
    | nil => rfl
    | cons d rest =>
      apply List.takeWhile_cons_of_neg
      intro digit
      apply numberless
      rw [whole, behind]
      exact .intro skipped signed digit
  -- each branch of the reading has its sign
  unfold integer
  split
  · rw [none .minus ‹_›]
    rfl
  · rw [none .plus ‹_›]
    rfl
  · rw [none .none rfl]
    rfl

theorem readBelow_digits (bound : Nat) {digits : List Char} (all : ∀ c ∈ digits, isDigit c = true) :
    readBelow bound digits =
      if digits ≠ [] ∧ value digits < bound then some (value digits) else none := by
  cases digits with
  | nil => rfl
  | cons d ds =>
    have plain : d ≠ '+' := by
      rintro rfl
      cases all '+' (List.mem_cons_self ..)
    have digits : (d :: ds).all isDigit = true := List.all_eq_true.mpr all
    have read : readDigits (d :: ds) = some (value (d :: ds)) := by
      rw [readDigits, digits]
      rfl
    unfold readBelow
    split
    · rename_i same
      exact absurd (List.cons.inj same).1 plain
    · dsimp only
      rw [read]
      by_cases below : value (d :: ds) < bound
      · simp [below]
      · simp [below, Nat.not_lt.mp below]

theorem readBelow_signed (negative : Bool) {digits : List Char} (all : ∀ c ∈ digits, isDigit c = true)
    {n : Int} (signed : n = if negative then -(value digits : Int) else value digits) :
    (match readBelow 0x8000000000000000 digits with
      | none => 0
      | some n => if negative then -(n : Int) else n) =
      if n.natAbs < 0x8000000000000000 then n else 0 := by
  have size : n.natAbs = value digits := by
    rw [signed]
    cases negative <;> simp
  rw [readBelow_digits _ all, size]
  by_cases fits : value digits < 0x8000000000000000
  · rw [if_pos fits]
    by_cases none : digits = []
    · subst none
      rw [if_neg fun found => found.1 rfl, signed]
      cases negative <;> rfl
    · rw [if_pos ⟨none, fits⟩]
      exact signed.symm
  · rw [if_neg fits, if_neg fun found => fits found.2]

/-- A number that does not fit is read as if there were none. -/
theorem leading_eq (cs : List Char) :
    leading blank cs =
      if (integer blank cs).natAbs < 0x8000000000000000 then integer blank cs else 0 := by
  have digits (rest : List Char) : ∀ c ∈ rest.takeWhile isDigit, isDigit c = true :=
    fun c member => List.mem_takeWhile_imp member
  unfold leading integer
  generalize cs.dropWhile blank = trimmed
  split
  · exact readBelow_signed true (digits _) rfl
  · exact readBelow_signed false (digits _) rfl
  · -- neither sign, so the digits begin at once
    simp only
    exact readBelow_signed false (digits trimmed) rfl

end MidiStorage.Text.Decimal
