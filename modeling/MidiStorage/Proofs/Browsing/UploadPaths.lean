import MidiStorage.Proofs.Browsing.Requests
import MidiStorage.Rehearsal.Volume

namespace MidiStorage

namespace Text

variable {separator : Char}

theorem not_mem_of_mem_parts {cs part : List Char} (member : part ∈ parts separator cs) :
    separator ∉ part := by
  induction cs generalizing part with
  | nil =>
    rw [parts, List.mem_singleton] at member
    rw [member]
    exact List.not_mem_nil
  | cons c cs ih =>
    rw [parts] at member
    split_ifs at member with separates
    · rcases List.mem_cons.mp member with rfl | later
      · exact List.not_mem_nil
      · exact ih later
    · -- the first part grows by a character that is not the separator
      have longer {first : List Char} (free : separator ∉ first) : separator ∉ c :: first := by
        rw [List.mem_cons, not_or]
        exact ⟨Ne.symm separates, free⟩
      cases split : parts separator cs with
      | nil =>
        rw [split] at member
        rw [List.mem_singleton.mp member]
        exact longer List.not_mem_nil
      | cons first rest =>
        rw [split] at member ih
        rcases List.mem_cons.mp member with rfl | later
        · exact longer (ih (List.mem_cons_self ..))
        · exact ih (List.mem_cons_of_mem _ later)

theorem exists_before_lastPart {cs : List Char} (member : separator ∈ cs) :
    ∃ before, cs = before ++ separator :: lastPart separator cs ∧
      separator ∉ lastPart separator cs := by
  obtain ⟨after, before, split, free⟩ := List.eq_append_cons_of_mem (List.mem_reverse.mpr member)
  have last : separator ∉ after.reverse := fun inside => free (List.mem_reverse.mp inside)
  have whole : cs = before.reverse ++ separator :: after.reverse := by
    rw [← cs.reverse_reverse, split]
    simp
  have part : lastPart separator cs = after.reverse := by
    rw [whole]
    exact lastPart_append _ last
  exact ⟨before.reverse, by rwa [part], by rwa [part]⟩

theorem cut_append {before : List Char} (free : separator ∉ before) (behind : List Char) :
    cut separator (before ++ separator :: behind) = (before, some behind) := by
  have ends : ∀ c ∈ (separator :: behind).head?, c = separator := by simp
  obtain ⟨first, second⟩ := span_component free ends
  simp only [cut, first, second]

end Text

namespace LocalPath

/-- A file name without its extension: what stands before its last dot. A dot at the front of the
name does not count. -/
inductive IsStem : List Char → List Char → Prop
  | whole {name : List Char} (plain : '.' ∉ name.tail) : IsStem name name
  | cut {stem extension : List Char} (some : stem ≠ []) (last : '.' ∉ extension) :
    IsStem (stem ++ '.' :: extension) stem

theorem isStem_stemOf (name : List Char) : IsStem name (stemOf name) := by
  by_cases dotted : '.' ∈ name
  · obtain ⟨before, split, last⟩ := Text.exists_before_lastPart dotted
    have length : name.length = before.length + (Text.lastPart '.' name).length + 1 := by
      have lengths := congrArg List.length split
      rw [List.length_append, List.length_cons] at lengths
      omega
    have front : name.take (name.length - (Text.lastPart '.' name).length - 1) = before := by
      have here : name.length - (Text.lastPart '.' name).length - 1 = before.length := by omega
      rw [here]
      nth_rewrite 1 [split]
      exact List.take_left
    have shorter : (Text.lastPart '.' name).length ≠ name.length := by omega
    unfold stemOf
    simp only [front, shorter, false_or, List.isEmpty_iff]
    split_ifs with hidden
    · apply IsStem.whole
      rw [hidden, List.nil_append] at split
      rwa [split, List.tail_cons]
    · nth_rewrite 1 [split]
      exact .cut hidden last
  · have whole : Text.lastPart '.' name = name := Text.lastPart_of_not_mem dotted
    unfold stemOf
    simp only [whole, true_or, ↓reduceIte]
    exact .whole fun inside => dotted (List.mem_of_mem_tail inside)

theorem IsStem.subset {name stem : List Char} (isStem : IsStem name stem) : stem ⊆ name := by
  cases isStem with
  | whole plain => exact List.Subset.refl _
  | cut some last => exact List.subset_append_left _ _

theorem IsStem.ne_nil {name stem : List Char} (isStem : IsStem name stem) (named : name ≠ []) :
    stem ≠ [] := by
  cases isStem with
  | whole plain => exact named
  | cut some last => exact some

theorem fileName_component {path : String} {name : List Char} (named : fileName path = some name) :
    name ≠ [] ∧ '/' ∉ name := by
  obtain ⟨last, -⟩ := Option.filter_eq_some_iff.mp named
  obtain ⟨part, kept⟩ := List.mem_filter.mp (List.mem_of_getLast? last)
  exact ⟨(of_decide_eq_true kept).1, Text.not_mem_of_mem_parts part⟩

theorem stem_component {path : String} (named : (fileName path).isSome) :
    (stem path).toList ≠ [] ∧ '/' ∉ (stem path).toList := by
  obtain ⟨name, found⟩ := Option.isSome_iff_exists.mp named
  obtain ⟨some, component⟩ := fileName_component found
  have same : (stem path).toList = stemOf name := by
    unfold stem
    rw [found]
    exact String.toList_ofList
  rw [same]
  exact ⟨(isStem_stemOf name).ne_nil some, fun inside => component ((isStem_stemOf name).subset inside)⟩

end LocalPath

namespace DevicePath

def entry (id : Nat) (name : String) : List Char := (toString id).toList ++ ':' :: name.toList

theorem slash_not_mem_entry (id : Nat) {name : String} (component : '/' ∉ name.toList) :
    '/' ∉ entry id name := by
  have digits : '/' ∉ (toString id).toList := Text.Decimal.not_mem_toString (by decide)
  rw [entry, List.mem_append, List.mem_cons, not_or, not_or]
  exact ⟨digits, by decide, component⟩

theorem idName_entry {id : Nat} (bound : id < idBound) {name : String} (named : name.toList ≠ [])
    (component : '/' ∉ name.toList) (front : List Char) :
    idName (String.ofList (front ++ '/' :: entry id name)) = .ok (id, some name) := by
  have last : Text.lastPart '/' (front ++ '/' :: entry id name) = entry id name :=
    Text.lastPart_append front (slash_not_mem_entry id component)
  have noColon : ':' ∉ (toString id).toList := Text.Decimal.not_mem_toString (by decide)
  have parts : Text.cut ':' (entry id name) = ((toString id).toList, some name.toList) :=
    Text.cut_append noColon name.toList
  have shown : name.toList.isEmpty = false := List.isEmpty_eq_false_iff.mpr named
  unfold idName
  rw [String.toList_ofList, last, parts]
  simp only [Text.Decimal.readBelow_toString bound, Option.filter, shown, Bool.not_false, ↓reduceIte,
    Option.map_some, String.ofList_toList]

theorem exists_parent {path : String} (rooted : path.toList.head? = some '/') :
    ∃ front, (parent path).toList = front ++ ['/'] ∧ (front ++ ['/']).head? = some '/' := by
  obtain ⟨front, split, -⟩ := Text.exists_before_lastPart (List.mem_of_mem_head? rooted)
  refine ⟨front, ?_, ?_⟩
  · have length : path.toList.length - (Text.lastPart '/' path.toList).length =
        (front ++ ['/']).length := by
      have lengths := congrArg List.length split
      simp only [List.length_append, List.length_cons, List.length_nil] at lengths ⊢
      omega
    have whole : path.toList = front ++ ['/'] ++ Text.lastPart '/' path.toList := by
      rw [← List.append_cons]
      exact split
    rw [parent, String.toList_ofList, length]
    nth_rewrite 1 [whole]
    exact List.take_left
  · rw [split] at rooted
    cases front with
    | nil => rfl
    | cons c front => exact rooted

end DevicePath

namespace Naming

/-- The id for a file that is uploaded into a directory, and the next free index afterwards. -/
def slotFor (dir : String) (next : Nat) : Nat × Nat :=
  match DevicePath.id dir with
  | .ok id => (id, next)
  | .error _ => (next, next + 1)

def slotsFor (dir : String) (files next : Nat) : List Nat × Nat :=
  match DevicePath.id dir with
  | .ok id => (List.replicate files id, next)
  | .error _ => (List.range' next files, next + files)

theorem slotsFor_succ (dir : String) (files next : Nat) :
    slotsFor dir (files + 1) next =
      ((slotFor dir next).1 :: (slotsFor dir files (slotFor dir next).2).1,
        (slotsFor dir files (slotFor dir next).2).2) := by
  unfold slotsFor slotFor
  cases DevicePath.id dir with
  | ok id => rfl
  | error e =>
    have count : next + (files + 1) = next + 1 + files := by omega
    simp only [count, List.range'_succ]

theorem slotFor_lt {dir : String} {next : Nat} (room : next < DevicePath.idBound) :
    (slotFor dir next).1 < DevicePath.idBound := by
  unfold slotFor
  split
  · exact DevicePath.id_lt ‹_›
  · exact room

theorem uploadPath_slot {options : VolumeOptions} (slots : options.slotStorage = true) {dir : String}
    (rooted : dir.toList.head? = some '/') (file : String) (next : Nat) :
    ∃ front, (front ++ ['/']).head? = some '/' ∧ uploadPath options dir file next =
      (String.ofList (front ++ '/' :: DevicePath.entry (slotFor dir next).1 (LocalPath.stem file)),
        (slotFor dir next).2) := by
  have placed {place : String} {front : List Char} (chars : place.toList = front ++ ['/']) (id : Nat)
      (name : String) : place ++ toString id ++ ":" ++ name =
        String.ofList (front ++ '/' :: DevicePath.entry id name) := by
    apply String.toList_inj.mp
    simp [DevicePath.entry, chars]
  unfold uploadPath slotFor
  simp only [slots, Bool.not_true, Bool.false_eq_true, ↓reduceIte]
  cases parsed : DevicePath.id dir with
  | ok id =>
    obtain ⟨front, chars, first⟩ := DevicePath.exists_parent rooted
    exact ⟨front, first, Prod.ext (placed chars id _) rfl⟩
  | error e =>
    dsimp only
    unfold DevicePath.join
    split_ifs with closed
    · obtain ⟨front, chars⟩ := List.getLast?_eq_some_iff.mp closed
      refine ⟨front, by rwa [← chars], Prod.ext ?_ rfl⟩
      rw [← placed chars next]
      simp only [String.append_assoc]
    · have chars : (dir ++ "/").toList = dir.toList ++ ['/'] := by simp
      refine ⟨dir.toList, ?_, Prod.ext ?_ rfl⟩
      · rw [List.head?_append, rooted]
        rfl
      · rw [← placed chars next]
        simp only [String.append_assoc]

end Naming

namespace Mount

variable {P : Type}

/-- The path leads to the volume, and its last component is read as this id and this name. -/
def Leads (m : Mount P) (v : Volume P) (id : Nat) (name path : String) : Prop :=
  ∃ inner, m.resolve path = .ok (v, inner) ∧ DevicePath.idName inner = .ok (id, some name)

def uploadPaths (m : Mount P) (dir : String) : List String → Nat → Except Failure (List String × Nat)
  | [], next => .ok ([], next)
  | file :: files, next => do
    let (path, next) ← m.uploadPath dir file next
    let (paths, next) ← m.uploadPaths dir files next
    return (path :: paths, next)

variable {m : Mount P} {v : Volume P} {dir inner : String}

theorem resolve_entry (found : m.resolve dir = .ok (v, inner)) {front : List Char}
    (rooted : (front ++ ['/']).head? = some '/') (id : Nat) {name : String} (named : name.toList ≠ [])
    (component : '/' ∉ name.toList) :
    m.resolve ("/" ++ v.name ++ String.ofList (front ++ '/' :: DevicePath.entry id name)) =
      .ok (v, String.ofList (front ++ '/' :: DevicePath.entry id name)) := by
  obtain ⟨splits, first⟩ := resolve_ok_iff.mp found
  refine resolve_ok_iff.mpr ⟨⟨splits.named, splits.component, ?_, ?_, rfl⟩, first⟩
  · rw [String.toList_ofList, List.append_cons, List.head?_append, rooted]
    rfl
  · intro _ closed
    have last : (front ++ '/' :: DevicePath.entry id name).getLast? = name.toList.getLast? := by
      rw [List.append_cons, DevicePath.entry, List.append_cons (toString id).toList, ← List.append_assoc,
        List.getLast?_append_of_ne_nil _ named]
    rw [String.toList_ofList, last] at closed
    exact component (List.mem_of_getLast? closed)

theorem uploadPath_leads (found : m.resolve dir = .ok (v, inner)) (slots : v.options.slotStorage = true)
    (standard : v.uploadPath = Naming.uploadPath v.options) {file : String}
    (named : (LocalPath.fileName file).isSome) {next : Nat}
    (bound : (Naming.slotFor inner next).1 < DevicePath.idBound) :
    ∃ path, m.uploadPath dir file next = .ok (path, (Naming.slotFor inner next).2) ∧
      m.Leads v (Naming.slotFor inner next).1 (LocalPath.stem file) path := by
  obtain ⟨shown, component⟩ := LocalPath.stem_component named
  have rooted := (resolve_ok_iff.mp found).splits.rooted
  obtain ⟨front, first, placed⟩ := Naming.uploadPath_slot slots rooted file next
  refine ⟨_, ?_, _, resolve_entry found first _ shown component,
    DevicePath.idName_entry bound shown component front⟩
  rw [← standard] at placed
  unfold uploadPath
  rw [found]
  simp only [bind, Except.bind, placed]
  rfl

theorem uploadPaths_lead (found : m.resolve dir = .ok (v, inner)) (slots : v.options.slotStorage = true)
    (standard : v.uploadPath = Naming.uploadPath v.options) {files : List String}
    (named : ∀ file ∈ files, (LocalPath.fileName file).isSome) {next : Nat}
    (room : next + files.length < DevicePath.idBound) :
    ∃ paths, m.uploadPaths dir files next =
        .ok (paths, (Naming.slotsFor inner files.length next).2) ∧
      List.Forall₂ (fun path slot => m.Leads v slot.1 slot.2 path) paths
        ((Naming.slotsFor inner files.length next).1.zip (files.map LocalPath.stem)) := by
  induction files generalizing next with
  | nil =>
    have none : Naming.slotsFor inner 0 next = ([], next) := by
      unfold Naming.slotsFor
      cases DevicePath.id inner <;> rfl
    rw [List.length_nil, none]
    exact ⟨[], rfl, .nil⟩
  | cons file files ih =>
    rw [List.forall_mem_cons] at named
    rw [List.length_cons] at room ⊢
    obtain ⟨path, first, leads⟩ :=
      uploadPath_leads found slots standard named.1 (Naming.slotFor_lt (by omega : next < _))
    have after : (Naming.slotFor inner next).2 ≤ next + 1 := by
      unfold Naming.slotFor
      split
      · exact Nat.le_succ next
      · exact Nat.le_refl _
    have left : (Naming.slotFor inner next).2 + files.length < DevicePath.idBound := by omega
    obtain ⟨paths, rest, later⟩ := ih named.2 left
    refine ⟨path :: paths, ?_, ?_⟩
    · simp only [uploadPaths, first, rest, bind, Except.bind, Naming.slotsFor_succ]
      rfl
    · rw [Naming.slotsFor_succ, List.map_cons, List.zip_cons_cons]
      exact .cons leads later

/-- The paths for files that are uploaded into slot storage resolve to the volume of their
directory, and their last components are read as the slots that were meant for them: the directory's
own slot under another name, or as many new slots in a row as there are files. -/
theorem uploads_lead_back (found : m.resolve dir = .ok (v, inner)) (slots : v.options.slotStorage = true)
    (standard : v.uploadPath = Naming.uploadPath v.options) (files : List String)
    (named : ∀ file ∈ files, (LocalPath.fileName file).isSome) (next : Nat)
    (room : next + files.length < DevicePath.idBound) :
    ∃ paths ids next', m.uploadPaths dir files next = .ok (paths, next') ∧
      List.Forall₂ (fun path (slot : Nat × String) => ∃ place, m.resolve path = .ok (v, place) ∧
        DevicePath.idName place = .ok (slot.1, some slot.2)) paths (ids.zip (files.map LocalPath.stem)) ∧
      match DevicePath.id inner with
      | .ok id => ids = List.replicate files.length id ∧ next' = next
      | .error _ => ids = List.range' next files.length ∧ ids.Nodup ∧ next' = next + files.length := by
  obtain ⟨paths, made, lead⟩ := uploadPaths_lead found slots standard named room
  refine ⟨paths, _, _, made, lead, ?_⟩
  unfold Naming.slotsFor
  cases DevicePath.id inner with
  | ok id => exact ⟨rfl, rfl⟩
  | error e => exact ⟨rfl, List.nodup_range', rfl⟩

end Mount

namespace Rehearsal

def folder : VolumeScript := { name := "folder", id := 1 }

def slots : VolumeScript := { name := "slots", id := 2, options := { slotStorage := true } }

def rack : Mount Rig where
  device := { link := Link.ofPort "rig:0" { port := .scripted { name := "rig" } } Timing.standard }
  volumes := [folder.volume, slots.volume]

theorem rack_uploads :
    rack.resolve "/slots//" = .ok (slots.volume, "/") ∧
      ∃ paths ids next', rack.uploadPaths "/slots//" ["/tmp/A:B.tar.gz", "pads/.choir/"] 4 =
          .ok (paths, next') ∧
        List.Forall₂ (fun path (slot : Nat × String) => ∃ place,
          rack.resolve path = .ok (slots.volume, place) ∧
            DevicePath.idName place = .ok (slot.1, some slot.2)) paths (ids.zip ["A:B.tar", ".choir"]) ∧
        ids = [4, 5] ∧ ids.Nodup ∧ next' = 6 := by
  have found : rack.resolve "/slots//" = .ok (slots.volume, "/") := by rfl
  refine ⟨found, ?_⟩
  have named : ∀ file ∈ ["/tmp/A:B.tar.gz", "pads/.choir/"], (LocalPath.fileName file).isSome := by
    decide +kernel
  obtain ⟨paths, ids, next', made, lead, slot⟩ :=
    Mount.uploads_lead_back found rfl rfl _ named 4 (by decide)
  have stems : ["/tmp/A:B.tar.gz", "pads/.choir/"].map LocalPath.stem = ["A:B.tar", ".choir"] := by
    decide +kernel
  have root : DevicePath.id "/" = .error (.invalidPath "/") := by decide +kernel
  rw [stems] at lead
  rw [root] at slot
  exact ⟨paths, ids, next', made, lead, slot⟩

end Rehearsal

end MidiStorage
