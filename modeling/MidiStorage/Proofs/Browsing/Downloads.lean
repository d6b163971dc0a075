import MidiStorage.Eventide.Dialect
import MidiStorage.Proofs.Browsing.UploadPaths

namespace MidiStorage

namespace Text

variable {separator : Char}

theorem parts_of_not_mem {cs : List Char} (free : separator ∉ cs) : parts separator cs = [cs] := by
  induction cs with
  | nil => rfl
  | cons c cs ih =>
    rw [List.mem_cons, not_or] at free
    rw [parts, if_neg (Ne.symm free.1), ih free.2]

theorem parts_ne_nil (cs : List Char) : parts separator cs ≠ [] := by
  cases cs with
  | nil => exact List.cons_ne_nil _ _
  | cons c cs =>
    rw [parts]
    split_ifs
    · exact List.cons_ne_nil _ _
    · cases parts separator cs <;> exact List.cons_ne_nil _ _

theorem parts_append {last : List Char} (free : separator ∉ last) (front : List Char) :
    parts separator (front ++ separator :: last) = parts separator front ++ [last] := by
  induction front with
  | nil => simp only [List.nil_append, parts, ↓reduceIte, parts_of_not_mem free, List.cons_append]
  | cons c front ih =>
    rw [List.cons_append, parts, parts]
    split_ifs
    · rw [ih, List.cons_append]
    · have some : parts separator front ≠ [] := parts_ne_nil front
      obtain ⟨part, rest, split⟩ := List.exists_cons_of_ne_nil some
      rw [ih, split]
      rfl

end Text

namespace LocalPath

structure Plain (text : String) : Prop where
  slashless : '/' ∉ text.toList
  nulless : '\x00' ∉ text.toList

theorem Plain.append {front behind : String} (first : Plain front) (second : Plain behind) :
    Plain (front ++ behind) where
  slashless := by
    rw [String.toList_append, List.mem_append, not_or]
    exact ⟨first.slashless, second.slashless⟩
  nulless := by
    rw [String.toList_append, List.mem_append, not_or]
    exact ⟨first.nulless, second.nulless⟩

theorem plain_toString (n : Nat) : Plain (toString n) :=
  ⟨Text.Decimal.not_mem_toString (by decide), Text.Decimal.not_mem_toString (by decide)⟩

theorem plain_sanitize (name : String) : Plain (sanitize name) := by
  have replaced {c : Char} (refused : c = '/' ∨ c = '\x00') : c ∉ (sanitize name).toList := by
    rw [sanitize, String.toList_ofList]
    intro inside
    obtain ⟨original, -, kept⟩ := List.mem_map.mp inside
    split_ifs at kept with other
    · subst kept
      revert refused
      decide
    · exact other (kept ▸ refused)
  exact ⟨replaced (.inl rfl), replaced (.inr rfl)⟩

theorem length_sanitize (name : String) : (sanitize name).length = name.length := by
  rw [sanitize, ← String.length_toList, String.toList_ofList, List.length_map, String.length_toList]

/-- A component of a path that leads to a new place inside: it is one component, and it neither
stays where it is nor leads up. -/
structure IsFileName (name : String) : Prop where
  plain : Plain name
  notEmpty : name ≠ ""
  notHere : name ≠ "."
  notUp : name ≠ ".."

theorem isFileName_extended {stem extension : String} (some : stem ≠ "") (plain : Plain stem)
    (extended : extension ≠ "") (plain' : Plain extension) : IsFileName (stem ++ "." ++ extension) := by
  have long : 3 ≤ (stem ++ "." ++ extension).length := by
    have first : 0 < stem.length := Nat.pos_of_ne_zero (mt String.length_eq_zero_iff.mp some)
    have last : 0 < extension.length := Nat.pos_of_ne_zero (mt String.length_eq_zero_iff.mp extended)
    have dot : ".".length = 1 := rfl
    rw [String.length_append, String.length_append]
    omega
  have dot : Plain "." := ⟨by decide, by decide⟩
  refine ⟨(plain.append dot).append plain', ?_, ?_, ?_⟩ <;>
  · intro short
    rw [short] at long
    revert long
    decide

/-- The path of a file of this name that is directly in the directory. -/
structure Inside (dir name path : String) : Prop where
  joined : path = join dir name
  isFileName : IsFileName name
  behind : dir.toList <+: path.toList
  component : components path = components dir ++ [name.toList]
  named : fileName path = some name.toList

theorem IsFileName.counts {name : String} (isFileName : IsFileName name) :
    [name.toList].filter (fun part => part ≠ [] ∧ part ≠ ['.']) = [name.toList] := by
  have some : name.toList ≠ [] := mt String.toList_eq_nil_iff.mp isFileName.notEmpty
  have moves : name.toList ≠ ['.'] := fun dot => isFileName.notHere (String.toList_inj.mp dot)
  rw [List.filter_singleton, decide_eq_true ⟨some, moves⟩]
  rfl

theorem components_of_isFileName {name : String} (isFileName : IsFileName name) :
    components name = [name.toList] := by
  rw [components, Text.parts_of_not_mem isFileName.plain.slashless, isFileName.counts]

theorem components_behind {name : String} (isFileName : IsFileName name) {path : String}
    {front : List Char} (chars : path.toList = front ++ '/' :: name.toList) :
    components path = components (String.ofList front) ++ [name.toList] := by
  rw [components, components, chars, Text.parts_append isFileName.plain.slashless, List.filter_append,
    isFileName.counts, String.toList_ofList]

theorem components_closed {dir : String} {front : List Char} (chars : dir.toList = front ++ ['/']) :
    components dir = components (String.ofList front) := by
  rw [components, components, chars, Text.parts_append List.not_mem_nil, List.filter_append,
    String.toList_ofList]
  exact List.append_nil _

theorem components_join (dir : String) {name : String} (isFileName : IsFileName name) :
    dir.toList <+: (join dir name).toList ∧
      components (join dir name) = components dir ++ [name.toList] := by
  have relative : ∀ behind, name.toList ≠ '/' :: behind := by
    intro behind absolute
    apply isFileName.plain.slashless
    rw [absolute]
    exact List.mem_cons_self
  unfold join
  split
  · exact absurd ‹_› (relative _)
  · split
    · -- no directory: the name alone
      have empty : dir = "" := String.toList_eq_nil_iff.mp (List.getLast?_eq_none_iff.mp ‹_›)
      subst empty
      rw [String.empty_append]
      exact ⟨List.nil_prefix, components_of_isFileName isFileName⟩
    · -- the slash is there already
      obtain ⟨front, chars⟩ := List.getLast?_eq_some_iff.mp ‹_›
      refine ⟨by simp, ?_⟩
      rw [components_closed chars]
      exact components_behind isFileName (by simp [chars])
    · have chars : (dir ++ "/" ++ name).toList = dir.toList ++ '/' :: name.toList := by simp
      refine ⟨by simp, ?_⟩
      rw [components_behind isFileName chars, String.ofList_toList]

theorem inside_join (dir : String) {name : String} (isFileName : IsFileName name) :
    Inside dir name (join dir name) := by
  obtain ⟨behind, component⟩ := components_join dir isFileName
  have moves : name.toList ≠ ['.', '.'] := fun up => isFileName.notUp (String.toList_inj.mp up)
  refine ⟨rfl, isFileName, behind, component, ?_⟩
  rw [fileName, component, List.getLast?_concat]
  simp [moves]

theorem inside_extended (dir : String) {stem extension : String} (named : stem ≠ "")
    (plain : Plain stem) (some : extension ≠ "") (plain' : Plain extension) :
    Inside dir (stem ++ "." ++ extension) (join dir (stem ++ "." ++ extension)) ∧
      ("." ++ extension).toList <:+ (stem ++ "." ++ extension).toList := by
  refine ⟨inside_join dir (isFileName_extended named plain some plain'), ?_⟩
  have whole : stem ++ "." ++ extension = stem ++ ("." ++ extension) := String.append_assoc
  rw [whole, @String.toList_append stem]
  exact List.suffix_append _ _

end LocalPath

namespace Naming

theorem downloadPath_inside (dir : String) (item : Item) {extension : String} (some : extension ≠ "")
    (plain : LocalPath.Plain extension) :
    ∃ name, LocalPath.Inside dir name (downloadPath dir item extension) ∧
      ("." ++ extension).toList <:+ name.toList := by
  unfold downloadPath
  split_ifs with nameless
  · have digits : toString item.id ≠ "" := by simp
    exact ⟨_, LocalPath.inside_extended dir digits (LocalPath.plain_toString item.id) some plain⟩
  · have shown : LocalPath.sanitize item.name ≠ "" := by
      intro empty
      have length := LocalPath.length_sanitize item.name
      rw [empty, String.length_empty] at length
      rw [String.length_eq_zero_iff.mp length.symm] at nameless
      exact nameless rfl
    exact ⟨_, LocalPath.inside_extended dir shown (LocalPath.plain_sanitize item.name) some plain⟩

/-- An item can have a name that only the extension keeps from leading up. -/
example : downloadPath "/tmp" { id := 1, name := "." } "" = "/tmp/.." ∧
    downloadPath "/tmp" { id := 1, name := "." } "syx" = "/tmp/..syx" := by
  decide

end Naming

namespace Eventide

variable {P : Type} [Port P]

theorem presetVolume_downloadPath_inside {d : Device P} {p : Pedal} (known : d.pedal = .ok p)
    {items : List Item} {path : String} {item : Item} (found : Item.find items path = .ok item)
    (dir : String) :
    ∃ name file, (presetVolume P).downloadPath d items dir path = .ok file ∧
      LocalPath.Inside dir name file ∧ ".syx".toList <:+ name.toList := by
  let stem := p.kind.label ++ " " ++ LocalPath.sanitize item.name
  have label : LocalPath.Plain (p.kind.label ++ " ") := by
    cases p.kind <;> exact ⟨by decide, by decide⟩
  have named : stem ≠ "" := by
    intro empty
    have spaced := congrArg String.toList empty
    simp [stem] at spaced
  have plain : LocalPath.Plain stem := label.append (LocalPath.plain_sanitize item.name)
  obtain ⟨inside, ends⟩ :=
    LocalPath.inside_extended dir named plain (by decide : "syx" ≠ "") ⟨by decide, by decide⟩
  have extended : stem ++ "." ++ "syx" = stem ++ ".syx" := String.append_assoc
  refine ⟨_, _, ?_, inside, ends⟩
  rw [extended]
  simp only [presetVolume, known, found, bind, Except.bind, pure, Except.pure, stem]

end Eventide

namespace Volume

variable {P : Type} [Port P]

/-- Wherever an item is downloaded to, the path of the file is the directory and one file name more,
which has no slash and no NUL, does not lead up, and ends in the extension. That holds for every
item that a listing can have, in volumes that do not choose the path themselves and in that of the
presets; of these no path is made while it is not known which pedal they are in. -/
theorem downloads_stay_inside {items : List Item} {path : String} {item : Item}
    (found : Item.find items path = .ok item) (dir : String) :
    (∀ (v : Volume P) (d : Device P),
      (v.downloadPath = fun _ items dir path => do
        return Naming.downloadPath dir (← Item.find items path) v.extension) →
      v.extension ≠ "" → LocalPath.Plain v.extension →
      ∃ name file, v.downloadPath d items dir path = .ok file ∧ LocalPath.Inside dir name file ∧
        ("." ++ v.extension).toList <:+ name.toList) ∧
    ∀ d : Device P, match d.pedal with
      | .ok _ => ∃ name file, (Eventide.presetVolume P).downloadPath d items dir path = .ok file ∧
          LocalPath.Inside dir name file ∧
          ("." ++ (Eventide.presetVolume P).extension).toList <:+ name.toList
      | .error e => (Eventide.presetVolume P).downloadPath d items dir path = .error e := by
  constructor
  · intro v d standard some plain
    obtain ⟨name, inside, ends⟩ := Naming.downloadPath_inside dir item some plain
    refine ⟨name, _, ?_, inside, ends⟩
    rw [standard]
    simp only [found, bind, Except.bind, pure, Except.pure]
  · intro d
    cases known : d.pedal with
    | ok p => exact Eventide.presetVolume_downloadPath_inside known found dir
    | error e => simp only [Eventide.presetVolume, known, bind, Except.bind]

end Volume

namespace Rehearsal

def sampler : VolumeScript where
  name := "sampler"
  id := 1
  extension := "wav"
  items := [{ id := 6, name := "" }, { id := 7, name := "/..\x00" }]

def stompbox : Device Rig where
  link := Link.ofPort "rig:0" { port := .scripted { name := "rig" } } Timing.standard
  state := some (.pedal { deviceId := 0, kind := .h9, first := 0, count := 99 })

theorem sampler_stays_inside :
    Item.find sampler.items "/7:x" = .ok { id := 7, name := "/..\x00" } ∧
      sampler.volume.extension ≠ "" ∧ LocalPath.Plain sampler.volume.extension ∧
      (∃ name file, sampler.volume.downloadPath stompbox sampler.items "/tmp" "/7:x" = .ok file ∧
        LocalPath.Inside "/tmp" name file ∧ ".wav".toList <:+ name.toList) ∧
      ∃ name file, (Eventide.presetVolume Rig).downloadPath stompbox sampler.items "/tmp" "/7:x" =
          .ok file ∧
        LocalPath.Inside "/tmp" name file ∧ ".syx".toList <:+ name.toList := by
  have found : Item.find sampler.items "/7:x" = .ok { id := 7, name := "/..\x00" } := by decide +kernel
  have some : sampler.volume.extension ≠ "" := by decide
  have plain : LocalPath.Plain sampler.volume.extension := ⟨by decide, by decide⟩
  obtain ⟨standard, presets⟩ := Volume.downloads_stay_inside (P := Rig) found "/tmp"
  exact ⟨found, some, plain, standard sampler.volume stompbox rfl some plain, presets stompbox⟩

end Rehearsal

end MidiStorage
