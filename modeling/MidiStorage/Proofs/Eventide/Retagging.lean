import MidiStorage.Proofs.Eventide.Listing
import MidiStorage.Proofs.Eventide.SingleMessage
import MidiStorage.Proofs.Text.Decoding

namespace MidiStorage.Eventide

open MidiStorage.Action Text

/-- The front part that is read as text, up to a NUL or an end mark. -/
def readable (bytes : Bytes) : Bytes := bytes.takeWhile fun b => b ≠ 0 ∧ b ≠ Bytes.sysexEnd

def dumpText (message : Bytes) : Bytes := readable (message.drop dumpOffset)

def dumpLines (message : Bytes) : List Bytes := linesAt 0x0D 0x0A (dumpText message)

/-- The lines with the tag of a slot in place of what stands before the blank of the first. -/
def retag (id : Nat) : List Bytes → List Bytes
  | [] => []
  | first :: rest => (slotTag id ++ first.dropWhile (· ≠ 0x20)) :: rest

def isBlankless (line : Bytes) : Bool := decide (0x20 ∉ line)

def fromBlank (data : Bytes) : Bytes := (data.drop dumpOffset).dropWhile (· ≠ 0x20)

def readLine (line : Bytes) : String := String.ofList (Utf8.decode line)

theorem linesOf_eq (message : Bytes) : Preset.linesOf message = (dumpLines message).map readLine := by
  unfold Preset.linesOf textAt
  rw [Utf8.lines_decode, List.map_map]
  rfl

theorem not_mem_slotTag (id : Nat) {b : UInt8} (outside : b.toNat < 0x30 ∨ 0x80 ≤ b.toNat) :
    b ∉ slotTag id := by
  intro member
  have bounds := mem_slotTag member
  omega

theorem readable_slotTag_append (id : Nat) (rest : Bytes) :
    readable (slotTag id ++ rest) = slotTag id ++ readable rest := by
  apply List.takeWhile_append_of_pos
  intro b member
  rw [decide_eq_true_eq]
  constructor
  · rintro rfl
    exact not_mem_slotTag id (by decide) member
  · rintro rfl
    exact not_mem_slotTag id (by decide) member

theorem unbroken_slotTag (id : Nat) : ¬ [0x0D, 0x0A] <:+: slotTag id := by
  intro broken
  exact not_mem_slotTag id (by decide) (broken.subset (List.mem_cons_self ..))

theorem readable_blank (behind : Bytes) : readable (0x20 :: behind) = 0x20 :: readable behind :=
  List.takeWhile_cons_of_pos (by decide)

theorem dropWhile_to_blank {front : Bytes} (free : 0x20 ∉ front) (behind : Bytes) :
    (front ++ 0x20 :: behind).dropWhile (· ≠ 0x20) = 0x20 :: behind := by
  have none : front.dropWhile (· ≠ 0x20) = [] := dropWhile_eq_nil_iff.mpr free
  rw [List.dropWhile_append, none]
  rfl

theorem exists_blank_line (behind : Bytes) :
    ∃ line others, linesAt 0x0D 0x0A (0x20 :: behind) = (0x20 :: line) :: others := by
  have pairless : ¬ [0x0D, 0x0A] <+: 0x20 :: behind := by
    rw [List.cons_prefix_cons]
    rintro ⟨isReturn, -⟩
    exact absurd isReturn (by decide)
  rw [linesAt_cons pairless]
  cases lines : linesAt 0x0D 0x0A behind with
  | nil => exact absurd lines (linesAt_ne_nil (by decide) behind)
  | cons line others => exact ⟨line, others, rfl⟩

/-- Of a text the lines that have no blank are lost, and the tag goes to the next. -/
theorem linesAt_tagged {front behind : Bytes} (free : 0x20 ∉ front) (id : Nat) :
    linesAt 0x0D 0x0A (slotTag id ++ 0x20 :: behind) =
      retag id ((linesAt 0x0D 0x0A (front ++ 0x20 :: behind)).dropWhile isBlankless) := by
  obtain ⟨line, others, lines⟩ := exists_blank_line behind
  obtain ⟨init, last, before, whole⟩ := exists_linesAt_append (by decide) front (by simp) lines
  have kept {part : Bytes} (inFront : part ∈ init ++ [last]) : 0x20 ∉ part := by
    rw [← before] at inFront
    intro blank
    exact free ((of_mem_linesAt (by decide) inFront).1.subset blank)
  have lost : ∀ part ∈ init, isBlankless part = true := by
    intro part member
    exact decide_eq_true (kept (List.mem_append_left _ member))
  have stays : ¬ isBlankless (last ++ 0x20 :: line) = true := by simp [isBlankless]
  have tagless : 0x20 ∉ last := kept (List.mem_append_right _ (List.mem_singleton_self last))
  rw [linesAt_unbroken_append (unbroken_slotTag id) (by simp) lines, whole, List.dropWhile_append_of_pos lost,
    List.dropWhile_cons_of_neg stays, retag, dropWhile_to_blank tagless]

section Retarget

variable {data message : Bytes} {device : UInt8} {id : Nat}

/-- What stands before the first blank of a dump gives way to the tag, and nothing else changes. -/
theorem dumpText_retarget (encoded : retarget data device id = .ok message) :
    dumpText message = slotTag id ++ readable (fromBlank data) := by
  rw [← readable_slotTag_append, retarget_eq encoded]
  rfl

theorem exists_fromBlank (encoded : retarget data device id = .ok message) :
    ∃ front behind, data.drop dumpOffset = front ++ 0x20 :: behind ∧ 0x20 ∉ front ∧
      fromBlank data = 0x20 :: behind := by
  obtain ⟨-, -, d, body, rfl, blank, -⟩ := retarget_ok_iff.mp encoded
  obtain ⟨front, behind, rfl, free⟩ := List.eq_append_cons_of_mem blank
  exact ⟨front, behind, rfl, free, dropWhile_to_blank free behind⟩

theorem dumpLines_retarget (encoded : retarget data device id = .ok message)
    (inText : 0x20 ∈ dumpText data) :
    dumpLines message = retag id ((dumpLines data).dropWhile isBlankless) := by
  obtain ⟨front, behind, body, free, rest⟩ := exists_fromBlank encoded
  have text : dumpText data = front ++ 0x20 :: readable behind := by
    unfold dumpText at inText ⊢
    rw [body] at inText ⊢
    unfold readable at inText ⊢
    rw [List.takeWhile_append] at inText ⊢
    split_ifs at inText ⊢ with readTo
    · exact congrArg (front ++ ·) (readable_blank behind)
    · exact absurd ((List.takeWhile_sublist _).subset inText) free
  unfold dumpLines
  rw [dumpText_retarget encoded, text, rest, readable_blank, linesAt_tagged free]

theorem exists_first_line (encoded : retarget data device id = .ok message) :
    ∃ line others, dumpLines message = (slotTag id ++ 0x20 :: line) :: others := by
  obtain ⟨front, behind, -, -, rest⟩ := exists_fromBlank encoded
  obtain ⟨line, others, lines⟩ := exists_blank_line (readable behind)
  refine ⟨line, others, ?_⟩
  unfold dumpLines
  rw [dumpText_retarget encoded, rest, readable_blank, linesAt_unbroken_append (unbroken_slotTag id) (by simp) lines]

theorem dumpLines_eq_retag_iff (encoded : retarget data device id = .ok message) :
    dumpLines message = retag id (dumpLines data) ↔
      ∃ first others, dumpLines data = first :: others ∧ 0x20 ∈ first := by
  constructor
  · intro same
    obtain ⟨line, others, sent⟩ := exists_first_line encoded
    rw [sent] at same
    cases lines : dumpLines data with
    | nil =>
      rw [lines] at same
      cases same
    | cons first rest =>
      refine ⟨first, rest, rfl, ?_⟩
      rw [lines] at same
      have tagged := List.append_cancel_left (List.cons.inj same).1
      by_contra free
      rw [dropWhile_eq_nil_iff.mpr free] at tagged
      cases tagged
  · rintro ⟨first, others, lines, blank⟩
    have inText : 0x20 ∈ dumpText data := by
      have member : first ∈ dumpLines data := by simp [lines]
      exact (of_mem_linesAt (by decide) member).1.subset blank
    have stays : ¬ isBlankless first = true := by simpa [isBlankless] using blank
    rw [dumpLines_retarget encoded inText, lines, List.dropWhile_cons_of_neg stays]

end Retarget

theorem retarget_refused {data : Bytes} {device : UInt8} {id : Nat} {failure : Failure}
    (refused : retarget data device id = .error failure) : ∃ text, failure = .badMessage text := by
  unfold retarget at refused
  split at refused
  · exact ⟨_, (Except.error.inj refused).symm⟩
  · split at refused
    · split at refused
      · exact ⟨_, (Except.error.inj refused).symm⟩
      · cases refused
    · exact ⟨_, (Except.error.inj refused).symm⟩

theorem retarget_tagless {data : Bytes} (short : data.length ≤ maxLength) (long : minLength < data.length)
    {d : UInt8} {body : Bytes} (dump : data = 0xF0 :: 0x1C :: 0x70 :: d :: dumpCode :: body)
    (free : 0x20 ∉ body) (device : UInt8) (id : Nat) :
    retarget data device id = .error (.badMessage "preset without id tag") := by
  subst dump
  have inside : ¬ (maxLength < (0xF0 :: 0x1C :: 0x70 :: d :: dumpCode :: body).length ∨
      (0xF0 :: 0x1C :: 0x70 :: d :: dumpCode :: body).length ≤ minLength) := by omega
  unfold retarget
  rw [if_neg inside]
  simp only [dumpCode, dropWhile_eq_nil_iff.mpr free]

/-- A dump is refused for want of a tag only if there is no blank anywhere behind its header. Of a
dump that is taken the number of the pedal changes, and the tag with all that stands before the
first blank; that this is no more than the tag of the first line is so exactly if the first line has
a blank. If another line is the first to have one, the lines before it are lost. -/
theorem retarget_lines_iff (data : Bytes) (device : UInt8) (id : Nat) :
    (∀ failure, retarget data device id = .error failure → ∃ text, failure = .badMessage text) ∧
    (∀ d body, data = 0xF0 :: 0x1C :: 0x70 :: d :: dumpCode :: body →
      minLength < data.length → data.length ≤ maxLength →
      ((∃ message, retarget data device id = .ok message) ↔ 0x20 ∈ body) ∧
      (retarget data device id = .error (.badMessage "preset without id tag") ↔ 0x20 ∉ body)) ∧
    ∀ message, retarget data device id = .ok message →
      message.take dumpOffset = [0xF0, 0x1C, 0x70, device, dumpCode] ∧
      dumpText message = slotTag id ++ readable (fromBlank data) ∧
      Preset.linesOf data = (dumpLines data).map readLine ∧
      Preset.linesOf message = (dumpLines message).map readLine ∧
      (dumpLines message = retag id (dumpLines data) ↔
        ∃ first others, dumpLines data = first :: others ∧ 0x20 ∈ first) ∧
      (0x20 ∈ dumpText data →
        dumpLines message = retag id ((dumpLines data).dropWhile isBlankless)) := by
  refine ⟨?_, ?_, ?_⟩
  · exact fun _ refused => retarget_refused refused
  · intro d body dump long short
    by_cases blank : 0x20 ∈ body
    · obtain ⟨message, taken⟩ : ∃ message, retarget data device id = .ok message :=
        ⟨_, retarget_ok_iff.mpr ⟨long, short, d, body, dump, blank, rfl⟩⟩
      simp [taken, blank]
    · simp [retarget_tagless short long dump blank, blank]
  · intro message encoded
    refine ⟨?_, dumpText_retarget encoded, linesOf_eq data, linesOf_eq message,
      dumpLines_eq_retag_iff encoded, dumpLines_retarget encoded⟩
    rw [retarget_eq encoded]
    rfl

def taglessLead : Bytes := (⟨#v["[3]0", "a", "b", "c", "d", "e"], "My Lead"⟩ : Preset).toMessage

theorem late_blank_loses_lines :
    Preset.linesOf taglessLead = ["[3]0", "a", "b", "c", "d", "e", "My Lead", ""] ∧
    retarget taglessLead 5 1 = .ok (Presets.sentFor taglessLead) ∧
    dumpLines (Presets.sentFor taglessLead) ≠ retag 1 (dumpLines taglessLead) ∧
    Preset.linesOf (Presets.sentFor taglessLead) = ["[2] Lead", ""] ∧
    answer (Presets.upload "/1" taglessLead Presets.silentPedal) = .ok () := by
  have encoded : retarget taglessLead 5 1 = .ok (Presets.sentFor taglessLead) := by decide +kernel
  obtain ⟨-, -, accepted⟩ := retarget_lines_iff taglessLead 5 1
  obtain ⟨-, -, before, after, onlyTag, -⟩ := accepted _ encoded
  refine ⟨?_, encoded, ?_, ?_, ?_⟩
  · rw [before]
    decide +kernel
  · rw [Ne, onlyTag]
    rintro ⟨first, others, lines, blank⟩
    have head : (dumpLines taglessLead).head? = some first := congrArg List.head? lines
    have isFirst : (dumpLines taglessLead).head? = some (Utf8.encode "[3]0".toList) := by decide +kernel
    rw [isFirst] at head
    cases head
    exact absurd blank (by decide +kernel)
  · rw [after]
    decide +kernel
  · decide +kernel

end MidiStorage.Eventide
