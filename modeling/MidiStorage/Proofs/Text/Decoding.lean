import Mathlib.Algebra.Group.Nat.Defs
import MidiStorage.Proofs.Text.Ascii

namespace MidiStorage.Text.Utf8

namespace Pending

/-- The numbers that the character can have once it is finished lie between these two. -/
def least (p : Pending) : Nat := (64 * p.bits + (p.low - 0x80)) * 64 ^ (p.missing - 1)

def greatest (p : Pending) : Nat := (64 * p.bits + (p.high - 0x80) + 1) * 64 ^ (p.missing - 1) - 1

/-- No ASCII byte continues the character, and once finished it is one beyond ASCII. -/
structure Wide (p : Pending) : Prop where
  missing : p.missing = 1 ∨ p.missing = 2 ∨ p.missing = 3
  low : 0x80 ≤ p.low
  beyond : 0x80 ≤ p.least
  valid : p.greatest < 0xD800 ∨ 0xE000 ≤ p.least ∧ p.greatest < 0x110000

end Pending

def IsOther (c : Char) : Prop := 0x80 ≤ c.toNat

/-- What a byte beyond ASCII may complete, and what it may leave under way. -/
structure Other (taken : List Char × Option Pending) : Prop where
  chars : ∀ c ∈ taken.1, IsOther c
  under : ∀ p ∈ taken.2, p.Wide

theorem isOther_ofNat {n : Nat} (beyond : 0x80 ≤ n) (valid : n.isValidChar) : IsOther (Char.ofNat n) := by
  unfold IsOther
  rwa [toNat_ofNat_of_valid valid]

theorem isOther_replacement : IsOther replacement := by
  unfold IsOther
  decide

theorem Other.single {c : Char} (other : IsOther c) : Other ([c], none) := by
  refine ⟨?_, by simp⟩
  intro d member
  rwa [List.mem_singleton.mp member]

theorem Other.more {p : Pending} (wide : p.Wide) : Other ([], some p) := by
  refine ⟨by simp, ?_⟩
  intro q under
  rwa [← Option.mem_some_iff.mp under]

section Continued

variable {p : Pending} (wide : p.Wide) {b : Nat} (continues : p.low ≤ b ∧ b ≤ p.high)

include wide continues

theorem Pending.Wide.finished (last : p.missing = 1) : IsOther (Char.ofNat (64 * p.bits + (b - 0x80))) := by
  obtain ⟨bits, missing, low, high⟩ := p
  obtain ⟨-, ascii, beyond, valid⟩ := wide
  cases last
  simp only [Pending.least, Pending.greatest, Nat.sub_self, Nat.pow_zero, Nat.mul_one] at beyond valid
  dsimp only at ascii continues ⊢
  refine isOther_ofNat (by omega) ?_
  unfold Nat.isValidChar
  omega

theorem Pending.Wide.next (more : p.missing ≠ 1) :
    Pending.Wide ⟨64 * p.bits + (b - 0x80), p.missing - 1, 0x80, 0xBF⟩ := by
  have power : 64 ^ (p.missing - 1) = 64 * 64 ^ (p.missing - 1 - 1) := by
    rw [← Nat.pow_succ']
    congr 1
    have few := wide.missing
    omega
  have low := wide.low
  have above : p.least ≤ Pending.least ⟨64 * p.bits + (b - 0x80), p.missing - 1, 0x80, 0xBF⟩ := by
    unfold Pending.least
    rw [power, ← Nat.mul_assoc]
    apply Nat.mul_le_mul_right
    dsimp only
    omega
  have below : Pending.greatest ⟨64 * p.bits + (b - 0x80), p.missing - 1, 0x80, 0xBF⟩ ≤ p.greatest := by
    unfold Pending.greatest
    rw [power, ← Nat.mul_assoc]
    apply Nat.sub_le_sub_right
    apply Nat.mul_le_mul_right
    dsimp only
    omega
  refine ⟨?_, Nat.le_refl _, wide.beyond.trans above, ?_⟩
  · have few := wide.missing
    dsimp only
    omega
  · have valid := wide.valid
    omega

end Continued

theorem begins_other {b : Nat} (beyond : 0x80 ≤ b) : Other (begins b) := by
  by_cases two : 0xC2 ≤ b ∧ b ≤ 0xDF
  · have split : b = 0xC0 + (b - 0xC0) := by omega
    rw [split, begins_two (by omega) (by omega)]
    refine .more ⟨Or.inl rfl, Nat.le_refl _, ?_, ?_⟩
    all_goals
      simp only [Pending.least, Pending.greatest]
      omega
  by_cases three : 0xE0 ≤ b ∧ b ≤ 0xEF
  · have split : b = 0xE0 + (b - 0xE0) := by omega
    rw [split, begins_three (by omega)]
    refine .more ⟨Or.inr (Or.inl rfl), ?_, ?_, ?_⟩
    all_goals
      simp only [Pending.least, Pending.greatest]
      split_ifs <;> omega
  by_cases four : 0xF0 ≤ b ∧ b ≤ 0xF4
  · have split : b = 0xF0 + (b - 0xF0) := by omega
    rw [split, begins_four (by omega)]
    refine .more ⟨Or.inr (Or.inr rfl), ?_, ?_, ?_⟩
    all_goals
      simp only [Pending.least, Pending.greatest]
      split_ifs <;> omega
  have none : begins b = ([replacement], none) := by
    unfold begins
    rw [if_neg (Nat.not_lt.mpr beyond), if_neg two, if_neg three, if_neg four]
  rw [none]
  exact .single isOther_replacement

theorem step_spoiled {p : Pending} {b : Nat} (spoils : ¬ (p.low ≤ b ∧ b ≤ p.high)) :
    step (some p) b = (replacement :: (begins b).1, (begins b).2) := if_neg spoils

theorem step_other {p : Option Pending} (wide : ∀ q ∈ p, q.Wide) {b : Nat} (beyond : 0x80 ≤ b) :
    Other (step p b) := by
  have begun := begins_other beyond
  cases p with
  | none => exact begun
  | some q =>
    by_cases continues : q.low ≤ b ∧ b ≤ q.high
    · by_cases last : q.missing = 1
      · have finished : step (some q) b = ([Char.ofNat (64 * q.bits + (b - 0x80))], none) :=
          (if_pos continues).trans (if_pos last)
        rw [finished]
        exact .single ((wide q rfl).finished continues last)
      · have goesOn : step (some q) b =
            ([], some ⟨64 * q.bits + (b - 0x80), q.missing - 1, 0x80, 0xBF⟩) :=
          (if_pos continues).trans (if_neg last)
        rw [goesOn]
        exact .more ((wide q rfl).next continues last)
    · rw [step_spoiled continues]
      refine ⟨?_, begun.under⟩
      intro c member
      rcases List.mem_cons.mp member with rfl | fresh
      · exact isOther_replacement
      · exact begun.chars c fresh

theorem step_ascii {p : Option Pending} (wide : ∀ q ∈ p, q.Wide) {b : Nat} (ascii : b < 0x80) :
    step p b = (decodeFrom p [] ++ [Char.ofNat b], none) := by
  have begun : begins b = ([Char.ofNat b], none) := if_pos ascii
  cases p with
  | none => exact begun
  | some q =>
    have low := (wide q rfl).low
    rw [step_spoiled (by omega), begun]
    rfl

theorem decodeFrom_cons (p : Option Pending) (b : UInt8) (rest : List UInt8) :
    decodeFrom p (b :: rest) = (step p b.toNat).1 ++ decodeFrom (step p b.toNat).2 rest := by
  cases p <;> rfl

theorem ofNat_byte {c : Char} (ascii : c.toNat < 0x80) : Char.ofNat (byte c).toNat = c := by
  rw [toNat_byte ascii, Char.ofNat_toNat]

theorem step_wide {p : Option Pending} (wide : ∀ q ∈ p, q.Wide) (b : UInt8) :
    ∀ q ∈ (step p b.toNat).2, q.Wide := by
  by_cases ascii : b.toNat < 0x80
  · rw [step_ascii wide ascii]
    simp
  · exact (step_other wide (Nat.not_lt.mp ascii)).under

/-- What stands before an ASCII byte and what stands behind it are read apart. -/
theorem decodeFrom_cut {p : Option Pending} (wide : ∀ q ∈ p, q.Wide) {c : Char} (ascii : c.toNat < 0x80)
    (front back : List UInt8) :
    decodeFrom p (front ++ byte c :: back) = decodeFrom p front ++ c :: decode back := by
  induction front generalizing p with
  | nil =>
    have small : (byte c).toNat < 0x80 := by rwa [toNat_byte ascii]
    rw [List.nil_append, decodeFrom_cons, step_ascii wide small, ofNat_byte ascii, List.append_assoc]
    rfl
  | cons b front ih =>
    rw [List.cons_append, decodeFrom_cons, decodeFrom_cons, List.append_assoc, ih (step_wide wide b)]

section Cut

variable {c : Char} (ascii : c.toNat < 0x80)

include ascii

theorem IsOther.ne {d : Char} (other : IsOther d) : d ≠ c := by
  rintro rfl
  exact absurd ascii (Nat.not_lt.mpr other)

theorem exists_behind_others {others rest front back : List Char} (all : ∀ d ∈ others, IsOther d)
    (joined : others ++ rest = front ++ c :: back) :
    ∃ front', front = others ++ front' ∧ rest = front' ++ c :: back := by
  rcases List.append_eq_append_iff.mp joined with ⟨front', whole, same⟩ | ⟨more, whole, same⟩
  · exact ⟨front', whole, same⟩
  · cases more with
    | nil => exact ⟨[], by simpa using whole.symm, by simpa using same.symm⟩
    | cons d more =>
      cases same
      have member : c ∈ others := by simp [whole]
      exact absurd rfl ((all c member).ne ascii)

theorem exists_cut {p : Option Pending} (wide : ∀ q ∈ p, q.Wide) {bytes : List UInt8}
    {front back : List Char} (read : decodeFrom p bytes = front ++ c :: back) :
    ∃ before behind, bytes = before ++ byte c :: behind ∧ front = decodeFrom p before ∧
      back = decode behind := by
  have unfinished (p : Option Pending) : ∀ d ∈ decodeFrom p [], IsOther d := by
    cases p with
    | none => simp [decodeFrom]
    | some q => simp [decodeFrom, isOther_replacement]
  induction bytes generalizing p front with
  | nil =>
    have member : c ∈ decodeFrom p [] := by simp [read]
    exact absurd rfl ((unfinished p c member).ne ascii)
  | cons b bytes ih =>
    rw [decodeFrom_cons] at read
    by_cases small : b.toNat < 0x80
    · rw [step_ascii wide small, List.append_assoc, List.singleton_append] at read
      obtain ⟨front', rfl, same⟩ := exists_behind_others ascii (unfinished p) read
      cases front' with
      | nil =>
        cases same
        exact ⟨[], bytes, by rw [byte_ofNat small]; rfl, List.append_nil _, rfl⟩
      | cons d front' =>
        obtain ⟨isD, later⟩ := List.cons.inj same
        subst isD
        obtain ⟨before, behind, rfl, rfl, rfl⟩ := ih (p := none) (by simp) later
        refine ⟨b :: before, behind, rfl, ?_, rfl⟩
        rw [decodeFrom_cons, step_ascii wide small, List.append_assoc]
        rfl
    · have others := step_other wide (Nat.not_lt.mp small)
      obtain ⟨front', rfl, same⟩ := exists_behind_others ascii others.chars read
      obtain ⟨before, behind, rfl, rfl, rfl⟩ := ih others.under same
      exact ⟨b :: before, behind, rfl, (decodeFrom_cons ..).symm, rfl⟩

theorem byte_mem_of_mem_decode {bytes : List UInt8} (member : c ∈ decode bytes) : byte c ∈ bytes := by
  obtain ⟨front, back, read⟩ := List.append_of_mem member
  obtain ⟨before, behind, rfl, -, -⟩ := exists_cut ascii (p := none) (by simp) read
  simp

end Cut

theorem step_silent {p : Option Pending} {b : Nat} (silent : (step p b).1 = []) :
    ∃ q, (step p b).2 = some q := by
  unfold step begins at *
  grind

theorem decodeFrom_some_ne_nil (q : Pending) (bytes : List UInt8) : decodeFrom (some q) bytes ≠ [] := by
  induction bytes generalizing q with
  | nil => simp [decodeFrom]
  | cons b bytes ih =>
    rw [decodeFrom_cons]
    intro nothing
    obtain ⟨silent, later⟩ := List.append_eq_nil_iff.mp nothing
    obtain ⟨q', under⟩ := step_silent silent
    rw [under] at later
    exact ih q' later

theorem eq_nil_of_decode {bytes : List UInt8} (nothing : decode bytes = []) : bytes = [] := by
  cases bytes with
  | nil => rfl
  | cons b bytes =>
    unfold decode at nothing
    rw [decodeFrom_cons] at nothing
    obtain ⟨silent, later⟩ := List.append_eq_nil_iff.mp nothing
    obtain ⟨q, under⟩ := step_silent silent
    rw [under] at later
    exact absurd later (decodeFrom_some_ne_nil q bytes)

theorem head?_of_head?_decode {c : Char} (ascii : c.toNat < 0x80) {bytes : List UInt8}
    (first : (decode bytes).head? = some c) : bytes.head? = some (byte c) := by
  obtain ⟨behind, read⟩ := List.head?_eq_some_iff.mp first
  have begun : decodeFrom none bytes = [] ++ c :: behind := read
  obtain ⟨before, rest, rfl, nothing, -⟩ := exists_cut ascii (by simp) begun
  rw [eq_nil_of_decode nothing.symm]
  rfl

theorem unbroken_decode {line : List UInt8} (unbroken : ¬ [byte '\r', byte '\n'] <:+: line) :
    Unbroken (decode line) := by
  rintro ⟨front, back, broken⟩
  rw [List.append_assoc, List.cons_append, List.cons_append, List.nil_append] at broken
  obtain ⟨before, behind, rfl, -, rest⟩ :=
    exists_cut (c := '\r') (by decide) (p := none) (by simp) broken.symm
  -- nothing that is read comes between the two
  have next : decodeFrom none behind = [] ++ '\n' :: back := rest.symm
  obtain ⟨between, after, rfl, nothing, -⟩ := exists_cut (by decide) (by simp) next
  rw [eq_nil_of_decode nothing.symm] at unbroken
  exact unbroken ⟨before, after, by simp⟩

/-- Bytes are broken into lines where the text is that is read from them. -/
theorem lines_decode (bytes : List UInt8) :
    lines (decode bytes) = (linesAt (byte '\r') (byte '\n') bytes).map decode := by
  have apart : byte '\r' ≠ byte '\n' := by decide
  induction bytes using broken_induction (a := byte '\r') (b := byte '\n') with
  | unbroken line unbroken =>
    rw [linesAt_unbroken unbroken, lines_eq, linesAt_unbroken (unbroken_decode unbroken)]
    rfl
  | broken line rest unbroken ih =>
    have whole : decode (line ++ byte '\r' :: byte '\n' :: rest) =
        decode line ++ '\r' :: '\n' :: decode rest := by
      have second := decodeFrom_cut (p := none) (by simp) (c := '\n') (by decide) [] rest
      unfold decode
      rw [decodeFrom_cut (by simp) (by decide)]
      exact congrArg (decodeFrom none line ++ '\r' :: ·) second
    rw [whole, lines_line (unbroken_decode unbroken), ih, linesAt_line apart unbroken, List.map_cons]

end MidiStorage.Text.Utf8
