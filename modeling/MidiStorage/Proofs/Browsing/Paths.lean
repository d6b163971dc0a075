import Mathlib.Data.List.DropRight
import MidiStorage.Proofs.Text.Numeral

namespace MidiStorage

namespace Text

variable {separator : Char}

theorem cut_eq (separator : Char) (cs : List Char) :
    (cut separator cs).1 = cs.takeWhile (· ≠ separator) ∧
      (cut separator cs).2.getD [] = (cs.dropWhile (· ≠ separator)).tail := by
  unfold cut
  cases cs.dropWhile (· ≠ separator) with
  | nil => exact ⟨rfl, rfl⟩
  | cons c behind => exact ⟨rfl, rfl⟩

theorem span_component {before behind : List Char} (free : separator ∉ before)
    (ends : ∀ c ∈ behind.head?, c = separator) :
    (before ++ behind).takeWhile (· ≠ separator) = before ∧
      (before ++ behind).dropWhile (· ≠ separator) = behind := by
  refine span_append (decide_ne_of_not_mem free) fun c head => ?_
  rw [ends c head]
  exact decide_eq_false (not_not.mpr rfl)

theorem trimEnd_append_replicate (cs : List Char) (n : Nat) :
    trimEnd separator (cs ++ List.replicate n separator) = trimEnd separator cs := by
  induction n with
  | zero => rw [List.replicate_zero, List.append_nil]
  | succ n ih =>
    rw [List.replicate_succ', ← List.append_assoc]
    exact (List.rdropWhile_concat_pos (· = separator) _ _ (decide_eq_true rfl)).trans ih

theorem trimEnd_of_getLast? {cs : List Char} (last : cs.getLast? ≠ some separator) :
    trimEnd separator cs = cs := by
  refine List.rdropWhile_eq_self_iff.mpr fun nonempty => ?_
  rw [List.getLast?_eq_some_getLast nonempty, Ne, Option.some_inj] at last
  rwa [decide_eq_true_eq]

theorem getLast?_trimEnd (cs : List Char) : (trimEnd separator cs).getLast? ≠ some separator := by
  intro last
  have nonempty : trimEnd separator cs ≠ [] := by
    intro empty
    rw [empty] at last
    cases last
  have other := List.rdropWhile_last_not _ cs nonempty
  rw [List.getLast?_eq_some_getLast nonempty, Option.some_inj] at last
  exact other (decide_eq_true last)

theorem exists_replicate (separator : Char) (cs : List Char) :
    ∃ n, cs = trimEnd separator cs ++ List.replicate n separator := by
  have separators : ∀ c ∈ cs.rtakeWhile (· = separator), c = separator :=
    fun c member => of_decide_eq_true (List.mem_rtakeWhile_imp (p := (· = separator)) member)
  refine ⟨(cs.rtakeWhile (· = separator)).length, ?_⟩
  rw [← List.eq_replicate_of_mem separators]
  exact List.rdropWhile_append_rtakeWhile.symm

theorem trimEnd_append_trimEnd (separator : Char) (before cs : List Char) :
    trimEnd separator (before ++ trimEnd separator cs) = trimEnd separator (before ++ cs) := by
  obtain ⟨n, written⟩ := exists_replicate separator cs
  nth_rewrite 2 [written]
  rw [← List.append_assoc, trimEnd_append_replicate]

end Text

namespace DevicePath

structure Splits (path name inner : String) : Prop where
  named : name ≠ ""
  component : '/' ∉ name.toList
  rooted : inner.toList.head? = some '/'
  trimmed : inner ≠ "/" → inner.toList.getLast? ≠ some '/'
  written : Text.trimEnd '/' path.toList = Text.trimEnd '/' ("/" ++ name ++ inner).toList

theorem split_apply {path : String} {name tail : List Char} (chars : path.toList = '/' :: (name ++ tail))
    (component : '/' ∉ name) (ends : ∀ c ∈ tail.head?, c = '/') :
    split path = if name = [] then .error (.invalidPath path)
      else .ok (String.ofList name, String.ofList ('/' :: Text.trimEnd '/' tail.tail)) := by
  obtain ⟨before, behind⟩ := Text.span_component component ends
  obtain ⟨first, second⟩ := Text.cut_eq '/' (name ++ tail)
  rw [before] at first
  rw [behind] at second
  simp only [split, chars, first, second, List.isEmpty_iff]

theorem exists_component (cs : List Char) :
    ∃ name tail, cs = name ++ tail ∧ '/' ∉ name ∧ ∀ c ∈ tail.head?, c = '/' := by
  refine ⟨cs.takeWhile (· ≠ '/'), cs.dropWhile (· ≠ '/'), List.takeWhile_append_dropWhile.symm, ?_, ?_⟩
  · intro member
    exact of_decide_eq_true (List.mem_takeWhile_imp (p := (· ≠ '/')) member) rfl
  · intro c head
    have stops := List.head?_dropWhile_not (p := (· ≠ '/')) cs
    rw [head] at stops
    simpa using stops

theorem split_of_error {path : String} {e : Failure} (failed : split path = .error e) :
    e = .invalidPath path := by
  unfold split at failed
  split at failed
  · dsimp only at failed
    split_ifs at failed
    · cases failed
      rfl
  · cases failed
    rfl

theorem trimEnd_inner {name tail : List Char} (ends : ∀ c ∈ tail.head?, c = '/') :
    Text.trimEnd '/' ('/' :: (name ++ tail)) =
      Text.trimEnd '/' ('/' :: (name ++ '/' :: Text.trimEnd '/' tail.tail)) := by
  cases tail with
  | nil =>
    rw [List.append_nil]
    exact (Text.trimEnd_append_replicate ('/' :: name) 1).symm
  | cons c behind =>
    obtain rfl : c = '/' := ends c rfl
    have same := Text.trimEnd_append_trimEnd '/' ('/' :: (name ++ ['/'])) behind
    simpa using same.symm

theorem rooted_of_split {path name inner : String} (found : split path = .ok (name, inner)) :
    ∃ cs, path.toList = '/' :: cs := by
  unfold split at found
  split at found
  · exact ⟨_, ‹_›⟩
  · cases found

theorem splits_of_split {path name inner : String} (found : split path = .ok (name, inner)) :
    Splits path name inner := by
  obtain ⟨cs, chars⟩ := rooted_of_split found
  obtain ⟨name', tail, rfl, component, ends⟩ := exists_component cs
  rw [split_apply chars component ends] at found
  split_ifs at found with unnamed
  simp only [Except.ok.injEq, Prod.mk.injEq] at found
  obtain ⟨rfl, rfl⟩ := found
  refine ⟨?_, ?_, ?_, ?_, ?_⟩
  · simpa using unnamed
  · rwa [String.toList_ofList]
  · rw [String.toList_ofList]
    rfl
  · intro deeper
    have nonempty : Text.trimEnd '/' tail.tail ≠ [] := by
      intro empty
      rw [empty] at deeper
      exact deeper rfl
    rw [String.toList_ofList, List.getLast?_cons_of_ne_nil nonempty]
    exact Text.getLast?_trimEnd _
  · have chars' : ("/" ++ String.ofList name' ++
        String.ofList ('/' :: Text.trimEnd '/' tail.tail)).toList =
        '/' :: (name' ++ '/' :: Text.trimEnd '/' tail.tail) := by simp
    rw [chars, chars', trimEnd_inner ends]

theorem split_of_splits {path name inner : String} (splits : Splits path name inner) :
    split path = .ok (name, inner) := by
  obtain ⟨named, component, rooted, trimmed, written⟩ := splits
  obtain ⟨rest, inside⟩ : ∃ rest, inner.toList = '/' :: rest := List.head?_eq_some_iff.mp rooted
  have full : ("/" ++ name ++ inner).toList = '/' :: (name.toList ++ '/' :: rest) := by simp [inside]
  have named' : name.toList ≠ [] := by simpa using named
  obtain ⟨n, chars⟩ := Text.exists_replicate '/' path.toList
  rw [written, full] at chars
  have found {tail : List Char} (chars : path.toList = '/' :: (name.toList ++ tail))
      (ends : ∀ c ∈ tail.head?, c = '/') (last : Text.trimEnd '/' tail.tail = rest) :
      split path = .ok (name, inner) := by
    rw [split_apply chars component ends, if_neg named', last, ← inside, String.ofList_toList,
      String.ofList_toList]
  -- the volume's root may be written without its slash, a deeper path may not
  cases rest with
  | nil =>
    have short : Text.trimEnd '/' ('/' :: (name.toList ++ ['/'])) = '/' :: name.toList := by
      refine (Text.trimEnd_append_replicate ('/' :: name.toList) 1).trans (Text.trimEnd_of_getLast? ?_)
      rw [List.getLast?_cons_of_ne_nil named']
      exact fun last => component (List.mem_of_getLast? last)
    rw [short, List.cons_append] at chars
    refine found chars ?_ ?_
    · intro c head
      exact List.eq_of_mem_replicate (List.mem_of_mem_head? head)
    · rw [List.tail_replicate]
      exact Text.trimEnd_append_replicate [] (n - 1)
  | cons c cs =>
    have last : (c :: cs).getLast? ≠ some '/' := by
      have deeper : inner ≠ "/" := by
        rintro rfl
        cases inside
      have last := trimmed deeper
      rwa [inside, List.getLast?_cons_cons] at last
    have long : Text.trimEnd '/' ('/' :: (name.toList ++ '/' :: c :: cs)) =
        '/' :: (name.toList ++ '/' :: c :: cs) := by
      apply Text.trimEnd_of_getLast?
      simpa [List.getLast?_append, List.getLast?_cons] using last
    rw [long, List.cons_append, List.append_assoc] at chars
    refine found chars ?_ ?_
    · intro d head
      cases head
      rfl
    · exact (Text.trimEnd_append_replicate (c :: cs) n).trans (Text.trimEnd_of_getLast? last)

theorem split_ok_iff {path name inner : String} :
    split path = .ok (name, inner) ↔ Splits path name inner :=
  ⟨splits_of_split, split_of_splits⟩

example : split "/preset//12:Lead//" = .ok ("preset", "//12:Lead") := by decide +kernel

/-- `path` begins with a slash, and `segment` is what stands between it and the next slash or the
end. -/
structure Begins (path segment : String) : Prop where
  component : '/' ∉ segment.toList
  followed : ∃ tail : String, path = "/" ++ segment ++ tail ∧ ∀ c ∈ tail.toList.head?, c = '/'

theorem split_of_begins {path segment : String} (begins : Begins path segment) (named : segment ≠ "") :
    ∃ inner, split path = .ok (segment, inner) := by
  obtain ⟨component, tail, rfl, ends⟩ := begins
  have chars : ("/" ++ segment ++ tail).toList = '/' :: (segment.toList ++ tail.toList) := by simp
  have named' : segment.toList ≠ [] := mt String.toList_eq_nil_iff.mp named
  rw [split_apply chars component ends, if_neg named', String.ofList_toList]
  exact ⟨_, rfl⟩

theorem begins_of_split {path name inner : String} (found : split path = .ok (name, inner)) :
    Begins path name := by
  obtain ⟨cs, chars⟩ := rooted_of_split found
  obtain ⟨segment, tail, rfl, component, ends⟩ := exists_component cs
  rw [split_apply chars component ends] at found
  split_ifs at found
  obtain ⟨rfl, -⟩ := Prod.mk.inj (Except.ok.inj found)
  refine ⟨by rwa [String.toList_ofList], String.ofList tail, ?_, by rwa [String.toList_ofList]⟩
  apply String.toList_inj.mp
  simp [chars]

/-- The paths are the same up to slashes at their ends. -/
def Alike (path other : String) : Prop :=
  ∃ (front : String) (m n : Nat), path = front ++ String.ofList (List.replicate m '/') ∧
    other = front ++ String.ofList (List.replicate n '/')

theorem alike_iff {path other : String} :
    Alike path other ↔ Text.trimEnd '/' path.toList = Text.trimEnd '/' other.toList := by
  constructor
  · rintro ⟨front, m, n, rfl, rfl⟩
    simp only [String.toList_append, String.toList_ofList, Text.trimEnd_append_replicate]
  · intro same
    obtain ⟨m, written⟩ := Text.exists_replicate '/' path.toList
    obtain ⟨n, written'⟩ := Text.exists_replicate '/' other.toList
    refine ⟨String.ofList (Text.trimEnd '/' path.toList), m, n, ?_, ?_⟩
    · rw [← String.ofList_append, ← written, String.ofList_toList]
    · rw [same, ← String.ofList_append, ← written', String.ofList_toList]

theorem split_ok_iff_alike {path name inner : String} (found : split path = .ok (name, inner))
    (other : String) : split other = .ok (name, inner) ↔ Alike path other := by
  obtain ⟨named, component, rooted, trimmed, written⟩ := split_ok_iff.mp found
  rw [alike_iff, written, split_ok_iff]
  constructor
  · intro splits
    exact splits.written.symm
  · intro same
    exact ⟨named, component, rooted, trimmed, same.symm⟩

/-- A path splits exactly if it begins with a slash and a segment that is not empty. The segment is
the volume's name. Together with the path inside the volume it makes up a normal form: the path
inside begins with a slash and ends in one only if it is the root, the normal form splits into the
same two, and up to slashes at the end it is the path itself. -/
theorem split_normal_form (path : String) :
    ((∃ name inner, split path = .ok (name, inner)) ↔ ∃ segment, Begins path segment ∧ segment ≠ "") ∧
      ∀ name inner, split path = .ok (name, inner) →
        Begins path name ∧ '/' ∉ name.toList ∧
        inner.toList.head? = some '/' ∧ (inner.toList.getLast? = some '/' → inner = "/") ∧
        split ("/" ++ name ++ inner) = .ok (name, inner) ∧ Alike path ("/" ++ name ++ inner) := by
  constructor
  · constructor
    · rintro ⟨name, inner, found⟩
      exact ⟨name, begins_of_split found, (split_ok_iff.mp found).named⟩
    · rintro ⟨segment, begins, named⟩
      obtain ⟨inner, found⟩ := split_of_begins begins named
      exact ⟨segment, inner, found⟩
  · intro name inner found
    have splits := split_ok_iff.mp found
    have alike : Alike path ("/" ++ name ++ inner) := alike_iff.mpr splits.written
    refine ⟨begins_of_split found, splits.component, splits.rooted, ?_, ?_, alike⟩
    · intro closed
      by_contra deeper
      exact splits.trimmed deeper closed
    · exact (split_ok_iff_alike found _).mpr alike

theorem spare_slashes_split :
    split "/preset///" = .ok ("preset", "/") ∧ "/".toList.getLast? = some '/' ∧
      Begins "/preset///" "preset" ∧ "preset" ≠ "" ∧
      split ("/" ++ "preset" ++ "/") = .ok ("preset", "/") ∧
      Alike "/preset///" ("/" ++ "preset" ++ "/") := by
  have found : split "/preset///" = .ok ("preset", "/") := by decide +kernel
  obtain ⟨-, normal⟩ := split_normal_form "/preset///"
  obtain ⟨begins, -, -, -, again, alike⟩ := normal "preset" "/" found
  exact ⟨found, by decide, begins, by decide, again, alike⟩

end DevicePath

end MidiStorage
