import Mathlib.Data.List.Nodup
import MidiStorage.Proofs.Browsing.UploadPaths

namespace MidiStorage

theorem find?_of_distinct {α κ : Type} [DecidableEq κ] {key : α → κ} {values : List α}
    (distinct : (values.map key).Nodup) {a : α} (member : a ∈ values) :
    values.find? (fun b => key b = key a) = some a := by
  have some : (values.find? fun b => key b = key a).isSome :=
    List.find?_isSome.mpr ⟨a, member, decide_eq_true rfl⟩
  obtain ⟨b, found⟩ := Option.isSome_iff_exists.mp some
  have same : key b = key a := by simpa using List.find?_some found
  rw [found, List.inj_on_of_nodup_map distinct (List.mem_of_find?_eq_some found) member same]

namespace DevicePath

theorem basename_behind (front : String) {name : String} (component : '/' ∉ name.toList) :
    basename (front ++ "/" ++ name) = name := by
  have chars : (front ++ "/" ++ name).toList = front.toList ++ '/' :: name.toList := by simp
  rw [basename, chars, Text.lastPart_append _ component, String.ofList_toList]

end DevicePath

theorem Item.find_of_distinct {items : List Item} (distinct : (items.map (·.id)).Nodup) {item : Item}
    (listed : item ∈ items) {path : String} (leads : DevicePath.id path = .ok item.id) :
    find items path = .ok item := by
  rw [find, leads]
  dsimp only
  rw [find?_of_distinct distinct listed]

namespace Text

variable {separator : Char}

theorem head?_trimEnd {cs : List Char} (rooted : ∀ c ∈ cs.head?, c = separator) :
    ∀ c ∈ (trimEnd separator cs).head?, c = separator := by
  obtain ⟨n, written⟩ := exists_replicate separator cs
  intro c first
  refine rooted c ?_
  rw [written, List.head?_append, Option.mem_def.mp first]
  rfl

end Text

namespace Volume

variable {P : Type} {v : Volume P} {dir : String} {item : Item}

def entry (v : Volume P) (item : Item) : String :=
  if v.options.slotStorage then toString item.id else item.name

def itemPlace (v : Volume P) (dir : String) (item : Item) : String :=
  String.ofList (Text.trimEnd '/' dir.toList) ++ "/" ++ v.entry item

theorem itemPath_eq (v : Volume P) (dir : String) (item : Item) :
    v.itemPath dir item =
      "/" ++ v.name ++ String.ofList (Text.trimEnd '/' dir.toList) ++ "/" ++ v.entry item := rfl

theorem split_itemPath (named : v.name ≠ "") (component : '/' ∉ v.name.toList)
    (rooted : ∀ c ∈ dir.toList.head?, c = '/') (item : Item) :
    ∃ behind, (v.itemPlace dir item).toList = '/' :: behind ∧
      DevicePath.split (v.itemPath dir item) =
        .ok (v.name, String.ofList ('/' :: Text.trimEnd '/' behind)) := by
  have front := Text.head?_trimEnd rooted
  have place : (v.itemPlace dir item).toList =
      Text.trimEnd '/' dir.toList ++ '/' :: (v.entry item).toList := by simp [itemPlace]
  obtain ⟨behind, inside⟩ : ∃ behind, (v.itemPlace dir item).toList = '/' :: behind := by
    rw [place]
    cases trimmed : Text.trimEnd '/' dir.toList with
    | nil => exact ⟨_, rfl⟩
    | cons c cs =>
      rw [trimmed] at front
      obtain rfl : c = '/' := front c rfl
      exact ⟨_, rfl⟩
  have chars : (v.itemPath dir item).toList = '/' :: (v.name.toList ++ '/' :: behind) := by
    rw [← inside, itemPath_eq, itemPlace]
    simp
  have ends : ∀ c ∈ ('/' :: behind).head?, c = '/' := by simp
  refine ⟨behind, inside, ?_⟩
  rw [DevicePath.split_apply chars component ends, if_neg (by simpa using named), String.ofList_toList]
  rfl

theorem split_itemPath_of_component (named : v.name ≠ "") (component : '/' ∉ v.name.toList)
    (rooted : ∀ c ∈ dir.toList.head?, c = '/') (called : v.entry item ≠ "")
    (single : '/' ∉ (v.entry item).toList) :
    DevicePath.split (v.itemPath dir item) = .ok (v.name, v.itemPlace dir item) := by
  obtain ⟨behind, inside, split⟩ := split_itemPath named component rooted item
  have called' : (v.entry item).toList ≠ [] := by simpa using called
  have last : (v.itemPlace dir item).toList.getLast? = (v.entry item).toList.getLast? := by
    rw [itemPlace, String.toList_append, List.getLast?_append_of_ne_nil _ called']
  have unclosed : behind.getLast? ≠ some '/' := by
    intro closed
    rw [inside, List.getLast?_cons, closed] at last
    exact single (List.mem_of_getLast? last.symm)
  rw [split, Text.trimEnd_of_getLast? unclosed, ← inside, String.ofList_toList]

end Volume

namespace Mount

variable {P : Type} {m : Mount P} {v : Volume P}

theorem volumeNamed?_of_distinct (distinct : (m.volumes.map (·.name)).Nodup) (mounted : v ∈ m.volumes) :
    m.volumeNamed? v.name = some v := find?_of_distinct distinct mounted

/-- The path of an item in a directory leads to the volume of the directory. With slots it ends in
the item's id, under which every listing with ids of their own has the item; without slots it ends
in the item's name, if that is one component. -/
theorem itemPath_leads_back (distinct : (m.volumes.map (·.name)).Nodup) (mounted : v ∈ m.volumes)
    (named : v.name ≠ "") (component : '/' ∉ v.name.toList) (dir : String)
    (rooted : dir = "" ∨ dir.toList.head? = some '/') (item : Item) (bound : item.id < DevicePath.idBound) :
    ∃ inner front n, m.resolve (v.itemPath dir item) = .ok (v, inner) ∧
      dir = front ++ String.ofList (List.replicate n '/') ∧ front.toList.getLast? ≠ some '/' ∧
      (v.options.slotStorage = true → inner = front ++ "/" ++ toString item.id ∧
        ∀ items : List Item, (items.map (·.id)).Nodup → item ∈ items →
          Item.find items inner = .ok item ∧ Item.find items (v.itemPath dir item) = .ok item) ∧
      (v.options.slotStorage = false → item.name ≠ "" → '/' ∉ item.name.toList →
        inner = front ++ "/" ++ item.name ∧ DevicePath.basename inner = item.name ∧
          DevicePath.basename (v.itemPath dir item) = item.name) := by
  have rooted' : ∀ c ∈ dir.toList.head?, c = '/' := by
    rcases rooted with rfl | rooted
    · simp
    · rw [rooted]
      simp
  obtain ⟨n, written⟩ := Text.exists_replicate '/' dir.toList
  obtain ⟨behind, -, split⟩ := Volume.split_itemPath named component rooted' item
  have resolves {inner : String} (split : DevicePath.split (v.itemPath dir item) = .ok (v.name, inner)) :
      m.resolve (v.itemPath dir item) = .ok (v, inner) := by
    simp only [resolve, split, volumeNamed?_of_distinct distinct mounted]
  -- One place for both kinds of volumes: the exact one if the entry is one component
  have place (called : v.entry item ≠ "") (single : '/' ∉ (v.entry item).toList) :
      String.ofList ('/' :: Text.trimEnd '/' behind) = v.itemPlace dir item := by
    rw [Volume.split_itemPath_of_component named component rooted' called single, Except.ok.injEq,
      Prod.mk.injEq] at split
    exact split.2.symm
  refine ⟨_, String.ofList (Text.trimEnd '/' dir.toList), n, resolves split, ?_, ?_, fun slots => ?_,
    fun slotless called single => ?_⟩
  · rw [← String.ofList_append, ← written, String.ofList_toList]
  · rw [String.toList_ofList]
    exact Text.getLast?_trimEnd _
  · have entry : v.entry item = toString item.id := if_pos slots
    have inner := place (by rw [entry]; simp)
      (by rw [entry]; exact Text.Decimal.not_mem_toString (by decide))
    rw [Volume.itemPlace, entry] at inner
    refine ⟨inner, fun items distinct listed => ⟨?_, ?_⟩⟩
    · rw [inner]
      exact Item.find_of_distinct distinct listed (DevicePath.id_behind _ bound)
    · rw [Volume.itemPath_eq, entry]
      exact Item.find_of_distinct distinct listed (DevicePath.id_behind _ bound)
  · have entry : v.entry item = item.name := if_neg (by rw [slotless]; decide)
    have inner := place (by rwa [entry]) (by rwa [entry])
    rw [Volume.itemPlace, entry] at inner
    refine ⟨inner, ?_, ?_⟩
    · rw [inner]
      exact DevicePath.basename_behind _ single
    · rw [Volume.itemPath_eq, entry]
      exact DevicePath.basename_behind _ single

end Mount

namespace Rehearsal

theorem choir_leads_back :
    let choir : Item := { id := 7, name := "Choir" }
    let items : List Item := [{ id := 2, name := "Choir" }, choir]
    rack.resolve (slots.volume.itemPath "//" choir) = .ok (slots.volume, "/7") ∧
      Item.find items "/7" = .ok choir ∧
      rack.resolve (folder.volume.itemPath "/pads/" choir) = .ok (folder.volume, "/pads/Choir") ∧
      DevicePath.basename "/pads/Choir" = "Choir" := by
  intro choir items
  have distinct : (rack.volumes.map (·.name)).Nodup := by decide
  have slotPath : slots.volume.itemPath "//" choir = "/slots/7" := by decide +kernel
  have filePath : folder.volume.itemPath "/pads/" choir = "/folder/pads/Choir" := by decide +kernel
  have slotPlace : rack.resolve (slots.volume.itemPath "//" choir) = .ok (slots.volume, "/7") := by
    rw [slotPath]
    rfl
  have filePlace : rack.resolve (folder.volume.itemPath "/pads/" choir) =
      .ok (folder.volume, "/pads/Choir") := by
    rw [filePath]
    rfl
  obtain ⟨_, _, _, resolved, -, -, inSlot, -⟩ := Mount.itemPath_leads_back (v := slots.volume) distinct
    (by simp [rack]) (by decide) (by decide) "//" (.inr rfl) choir (by decide)
  rw [slotPlace, Except.ok.injEq, Prod.mk.injEq] at resolved
  obtain ⟨_, _, _, resolved', -, -, -, inFile⟩ := Mount.itemPath_leads_back (v := folder.volume) distinct
    (by simp [rack]) (by decide) (by decide) "/pads/" (.inr rfl) choir (by decide)
  rw [filePlace, Except.ok.injEq, Prod.mk.injEq] at resolved'
  have found := (inSlot rfl).2 items (by decide) (by simp [items])
  have named := (inFile rfl (by decide) (by decide)).2.1
  rw [← resolved.2] at found
  rw [← resolved'.2] at named
  exact ⟨slotPlace, found.1, filePlace, named⟩

end Rehearsal

end MidiStorage
