import Mathlib.Logic.Function.Basic
import MidiStorage.Port.Virtual
import MidiStorage.Proofs.Eventide.Renaming

namespace MidiStorage.Eventide

open Text

/-- The presets of the slots from `first` on, by their ids. -/
structure Slots where
  first : Nat
  count : Nat
  preset : Nat → Preset

namespace Slots

def ids (s : Slots) : List Nat := List.range' s.first s.count

def presets (s : Slots) : List Preset := s.ids.map s.preset

def put (s : Slots) (id : Nat) (p : Preset) : Slots :=
  { s with preset := Function.update s.preset id p }

structure Plain (s : Slots) : Prop where
  presets : ∀ id ∈ s.ids, (s.preset id).Plain
  count : s.count ≤ 100
  bound : s.first + s.count ≤ DevicePath.idBound

def tagNumber (line : String) : Option Nat :=
  match line.toList with
  | '[' :: cs => Decimal.readDigits (cs.takeWhile (· ≠ ']'))
  | _ => none

def keep (s : Slots) (p : Preset) : Slots :=
  match s.ids.find? fun id => tagNumber p.firstLine = some (id % 100 + 1) with
  | none => s
  | some id => s.put id p

def store (s : Slots) : Bytes → Slots
  | 0xF0 :: 0x1C :: 0x70 :: number :: 0x49 :: body =>
    match Preset.ofDump (0xF0 :: 0x1C :: 0x70 :: number :: 0x49 :: body) with
    | [] => s
    | p :: _ => s.keep p
  | _ => s

/-- What the pedal says to a message, given the messages before it. -/
def respond (s : Slots) (number : UInt8) (earlier : List Bytes) (message : Bytes) : Reply :=
  if message = bulkRequest then { parts := [dumpOf number (earlier.foldl store s).presets] } else {}

def locate (s : Slots) (path : String) : Except Failure Nat :=
  match DevicePath.id path with
  | .error e => .error e
  | .ok id => if id ∈ s.ids then .ok id else .error (.invalidPath path)

def listing (s : Slots) : List Item := s.ids.map fun id => { id, name := (s.preset id).name }

def list (s : Slots) (dir : String) : Except Failure (List Item) :=
  if dir = "/" then .ok s.listing else .error (.notADirectory dir)

def download (s : Slots) (path : String) : Except Failure Bytes :=
  (s.locate path).map fun id => dumpOf 0 [s.preset id]

def save (s : Slots) (id : Nat) (p : Preset) : Except Failure Unit × Slots :=
  let size := (dumpOf 0 [p]).length
  if maxLength < size then (.error (.badMessage ("bad preset length " ++ toString size)), s)
  else (.ok (), s.put id (p.inSlot id))

def upload (s : Slots) (path : String) (p : Preset) : Except Failure Unit × Slots :=
  match s.locate path with
  | .error e => (.error e, s)
  | .ok id => s.save id p

def rename (s : Slots) (path name : String) : Except Failure Unit × Slots :=
  match s.locate path with
  | .error e => (.error e, s)
  | .ok id => s.save id ((s.preset id).named name)

theorem mem_ids {s : Slots} {id : Nat} : id ∈ s.ids ↔ s.first ≤ id ∧ id < s.first + s.count :=
  List.mem_range'_1

theorem length_presets (s : Slots) : s.presets.length = s.count := by
  unfold presets ids
  rw [List.length_map, List.length_range']

theorem getElem?_presets (s : Slots) (i : Nat) :
    s.presets[i]? = if i < s.count then some (s.preset (s.first + i)) else none := by
  unfold presets ids
  by_cases small : i < s.count
  · rw [List.getElem?_map, List.getElem?_range' small, Nat.one_mul, if_pos small]
    rfl
  · have past : (List.range' s.first s.count)[i]? = none := by
      rw [List.getElem?_eq_none_iff, List.length_range']
      omega
    rw [List.getElem?_map, past, if_neg small]
    rfl

theorem getElem?_slot {s : Slots} {id : Nat} (inside : id ∈ s.ids) :
    s.presets[id - s.first]? = some (s.preset id) := by
  obtain ⟨low, high⟩ := mem_ids.mp inside
  have offset : id - s.first < s.count := by omega
  have back : s.first + (id - s.first) = id := by omega
  rw [getElem?_presets, if_pos offset, back]

theorem Plain.ofPresets {s : Slots} (plain : s.Plain) : ∀ p ∈ s.presets, p.Plain := by
  intro p member
  obtain ⟨id, inside, rfl⟩ := List.mem_map.mp member
  exact plain.presets id inside

theorem Plain.put {s : Slots} (plain : s.Plain) (id : Nat) {p : Preset} (preset : p.Plain) :
    (s.put id p).Plain := by
  refine ⟨?_, plain.count, plain.bound⟩
  intro other inside
  by_cases same : other = id
  · subst same
    have here : (s.put other p).preset other = p := Function.update_self ..
    rwa [here]
  · have there : (s.put id p).preset other = s.preset other := Function.update_of_ne same ..
    rw [there]
    exact plain.presets other inside

theorem presets_put {s : Slots} {id : Nat} (inside : id ∈ s.ids) (p : Preset) :
    (s.put id p).presets = s.presets.set (id - s.first) p := by
  obtain ⟨low, high⟩ := mem_ids.mp inside
  apply List.ext_getElem?
  intro i
  have count : (s.put id p).count = s.count := rfl
  have first : (s.put id p).first = s.first := rfl
  rw [List.getElem?_set, length_presets, getElem?_presets, getElem?_presets, count, first]
  by_cases same : id - s.first = i
  · have back : s.first + i = id := by omega
    have small : i < s.count := by omega
    have here : (s.put id p).preset id = p := Function.update_self ..
    rw [if_pos small, if_pos same, if_pos (same ▸ small), back, here]
  · have apart : s.first + i ≠ id := by omega
    have there : (s.put id p).preset (s.first + i) = s.preset (s.first + i) :=
      Function.update_of_ne apart ..
    rw [there, if_neg same]

theorem tagNumber_tagged (id : Nat) (line : String) :
    tagNumber (Preset.tagged id line) = some (id % 100 + 1) := by
  have digits : ']' ∉ (toString (id % 100 + 1)).toList := Decimal.not_mem_toString (by decide)
  have number : ((toString (id % 100 + 1)).toList ++ ']' :: line.toList.dropWhile (· ≠ ' ')).takeWhile
      (· ≠ ']') = (toString (id % 100 + 1)).toList := by
    refine (span_append (decide_ne_of_not_mem digits) ?_).1
    simp
  have shape : (Preset.tagged id line).toList = '[' ::
      ((toString (id % 100 + 1)).toList ++ ']' :: line.toList.dropWhile (· ≠ ' ')) := by
    rw [Preset.toList_tagged, tagText_eq, List.cons_append, List.append_assoc, List.cons_append,
      List.nil_append]
  unfold tagNumber
  rw [shape]
  simp only [number, Decimal.readDigits_toString]

theorem find?_tag {s : Slots} (hundred : s.count ≤ 100) {id : Nat} (inside : id ∈ s.ids) :
    s.ids.find? (fun other => some (id % 100 + 1) = some (other % 100 + 1)) = some id := by
  obtain ⟨low, high⟩ := mem_ids.mp inside
  rw [List.find?_eq_some_iff_append]
  refine ⟨by simp, List.range' s.first (id - s.first),
    List.range' (id + 1) (s.first + s.count - (id + 1)), ?_, ?_⟩
  · have parts : s.count = (id - s.first) + (1 + (s.first + s.count - (id + 1))) := by omega
    have back : s.first + (id - s.first) = id := by omega
    unfold ids
    nth_rewrite 1 [parts]
    rw [← List.range'_append_1, back, Nat.add_comm 1, List.range'_succ]
  · intro other member
    obtain ⟨otherLow, otherHigh⟩ := List.mem_range'_1.mp member
    -- both lie in a window of a hundred ids
    have differ : other % 100 ≠ id % 100 := by omega
    simp only [Option.some.injEq, Nat.add_right_cancel_iff, Bool.not_eq_eq_eq_not, Bool.not_true,
      decide_eq_false_iff_not]
    exact Ne.symm differ

theorem store_inSlot {s : Slots} (hundred : s.count ≤ 100) {id : Nat} (inside : id ∈ s.ids)
    (number : UInt8) {p : Preset} (plain : p.Plain) :
    s.store (dumpOf number [p.inSlot id]) = s.put id (p.inSlot id) := by
  have read : Preset.ofDump (dumpOf number [p.inSlot id]) = [p.inSlot id] :=
    ofDump_single (plain.inSlot id).legible
  have bytes : dumpOf number [p.inSlot id] = _ := dumpOf_singleton number (p.inSlot id)
  rw [bytes] at read ⊢
  change (match Preset.ofDump _ with | [] => s | q :: _ => s.keep q) = _
  rw [read]
  unfold keep
  simp only [Preset.firstLine_inSlot, tagNumber_tagged, find?_tag hundred inside]

theorem locate_cases (s : Slots) (path : String) :
    (∃ e, DevicePath.id path = .error e ∧ s.locate path = .error e) ∨
    (∃ id, DevicePath.id path = .ok id ∧ id ∉ s.ids ∧ s.locate path = .error (.invalidPath path)) ∨
    (∃ id, DevicePath.id path = .ok id ∧ id ∈ s.ids ∧ s.locate path = .ok id) := by
  unfold locate
  cases parsed : DevicePath.id path with
  | error e => exact Or.inl ⟨e, rfl, rfl⟩
  | ok id =>
    right
    by_cases inside : id ∈ s.ids
    · exact Or.inr ⟨id, rfl, inside, if_pos inside⟩
    · exact Or.inl ⟨id, rfl, inside, if_neg inside⟩

theorem locate_ok {s : Slots} {path : String} {id : Nat} (located : s.locate path = .ok id) :
    DevicePath.id path = .ok id ∧ id ∈ s.ids := by
  rcases s.locate_cases path with ⟨e, -, same⟩ | ⟨other, -, -, same⟩ | ⟨other, parsed, inside, same⟩
  · rw [located] at same
    cases same
  · rw [located] at same
    cases same
  · rw [located] at same
    cases same
    exact ⟨parsed, inside⟩

theorem locate_slot {s : Slots} (bound : s.first + s.count ≤ DevicePath.idBound) {id : Nat}
    (inside : id ∈ s.ids) : DevicePath.id ("/" ++ toString id) = .ok id := by
  obtain ⟨-, high⟩ := mem_ids.mp inside
  exact DevicePath.id_slot (by omega)

theorem store_bulkRequest (s : Slots) : s.store bulkRequest = s := rfl

theorem respond_bulkRequest (s : Slots) (number : UInt8) (earlier : List Bytes) :
    s.respond number earlier bulkRequest =
      { parts := [dumpOf number (earlier.foldl store s).presets] } := by
  unfold respond
  rw [if_pos rfl]

theorem respond_dumpOf (s : Slots) (number device : UInt8) (earlier : List Bytes)
    (presets : List Preset) : s.respond number earlier (dumpOf device presets) = {} := by
  have other : dumpOf device presets ≠ bulkRequest := by
    intro same
    have codes := congrArg (fun bytes : Bytes => bytes[4]?) same
    exact absurd codes (by simp [dumpOf, dumpCode, bulkRequest, header])
  unfold respond
  rw [if_neg other]

end Slots

end MidiStorage.Eventide
