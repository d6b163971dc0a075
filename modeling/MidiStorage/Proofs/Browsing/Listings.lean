import MidiStorage.Proofs.Browsing.Requests
import MidiStorage.Proofs.Text.ByteOrder
import MidiStorage.Rehearsal.Volume

namespace MidiStorage

open MidiStorage.Action

/-- Values in ascending order of their keys, those with one key in the order in which they stood. -/
structure StablySorted {α κ : Type} [LE κ] [DecidableEq κ] (key : α → κ) (values sorted : List α) : Prop where
  perm : sorted.Perm values
  ascending : sorted.Pairwise fun a b => key a ≤ key b
  stable : ∀ k, sorted.filter (key · = k) = values.filter (key · = k)

theorem stablySorted_mergeSort {α κ : Type} [LE κ] [DecidableLE κ] [DecidableEq κ] [Std.IsLinearOrder κ]
    (key : α → κ) (values : List α) :
    StablySorted key values (values.mergeSort fun a b => key a ≤ key b) := by
  have trans (a b c : α) (ab : decide (key a ≤ key b) = true) (bc : decide (key b ≤ key c) = true) :
      decide (key a ≤ key c) = true :=
    decide_eq_true (Std.le_trans (of_decide_eq_true ab) (of_decide_eq_true bc))
  have total (a b : α) : (decide (key a ≤ key b) || decide (key b ≤ key a)) = true := by
    simpa using Std.le_total (a := key a) (b := key b)
  have perm := List.mergeSort_perm values fun a b => key a ≤ key b
  refine ⟨perm, ?_, fun k => ?_⟩
  · exact (List.pairwise_mergeSort trans total values).imp of_decide_eq_true
  · -- The values with one key are in order as they stand, so they stay a sublist
    have together : (values.filter (key · = k)).Pairwise fun a b => decide (key a ≤ key b) = true := by
      refine List.pairwise_of_forall_mem_list fun a memA b memB => decide_eq_true ?_
      have keyA : key a = k := of_decide_eq_true (List.mem_filter.mp memA).2
      have keyB : key b = k := of_decide_eq_true (List.mem_filter.mp memB).2
      rw [keyA, keyB]
      exact Std.le_refl k
    have kept := List.sublist_mergeSort trans total together List.filter_sublist
    have inside := kept.filter (key · = k)
    rw [List.filter_filter] at inside
    simp only [Bool.and_self] at inside
    exact (inside.eq_of_length (perm.filter _).length_eq.symm).symm

namespace Item

theorem sortById_sorted (items : List Item) : StablySorted (·.id) items (sortById items) :=
  stablySorted_mergeSort (·.id) items

theorem sortByName_sorted (items : List Item) :
    StablySorted (fun item => Text.Utf8.encode item.name.toList) items (sortByName items) := by
  have same : sortByName items = items.mergeSort fun a b =>
      Text.Utf8.encode a.name.toList ≤ Text.Utf8.encode b.name.toList := by
    simp only [sortByName, Text.Utf8.string_le_iff]
  rw [same]
  exact stablySorted_mergeSort _ items

end Item

namespace Mount

variable {P : Type} {m : Mount P} {path : String}

def OrderedById (m : Mount P) (path : String) : Prop :=
  DevicePath.isRoot path = true ∨
    ∃ v inner, m.resolve path = .ok (v, inner) ∧ v.options.sortById = true

def OrderedByName (m : Mount P) (path : String) : Prop :=
  ∃ v inner, m.resolve path = .ok (v, inner) ∧ v.options.sortByName = true

theorem listingOptions_ok {options : VolumeOptions} (known : m.listingOptions path = .ok options) :
    DevicePath.isRoot path = true ∧ options = { sortById := true } ∨
      DevicePath.isRoot path = false ∧ ∃ v inner, m.resolve path = .ok (v, inner) ∧ options = v.options := by
  unfold listingOptions at known
  split_ifs at known with root
  · cases known
    exact .inl ⟨root, rfl⟩
  · cases resolved : m.resolve path with
    | error e =>
      rw [resolved] at known
      cases known
    | ok place =>
      rw [resolved] at known
      cases known
      exact .inr ⟨(Bool.not_eq_true _).mp root, _, _, rfl, rfl⟩

theorem listingOptions_error {e : Failure} (lost : m.listingOptions path = .error e) :
    DevicePath.isRoot path = false ∧ m.resolve path = .error e := by
  unfold listingOptions at lost
  split_ifs at lost with root
  refine ⟨(Bool.not_eq_true _).mp root, ?_⟩
  cases resolved : m.resolve path with
  | error e' =>
    rw [resolved] at lost
    cases lost
    rfl
  | ok place =>
    rw [resolved] at lost
    cases lost

theorem sortById_iff {options : VolumeOptions} (known : m.listingOptions path = .ok options) :
    options.sortById = true ↔ m.OrderedById path := by
  rcases listingOptions_ok known with ⟨root, rfl⟩ | ⟨below, v, inner, resolved, rfl⟩
  · simp [OrderedById, root]
  · simp [OrderedById, below, resolved]

theorem sortByName_iff {options : VolumeOptions} (known : m.listingOptions path = .ok options)
    (notById : ¬ m.OrderedById path) : options.sortByName = true ↔ m.OrderedByName path := by
  rcases listingOptions_ok known with ⟨root, -⟩ | ⟨-, v, inner, resolved, rfl⟩
  · exact absurd (.inl root) notById
  · simp [OrderedByName, resolved]

theorem listSorted_of_options {options : VolumeOptions} (known : m.listingOptions path = .ok options) :
    listSorted path m = match list path m with
      | .ok items m' => .ok (if options.sortById then Item.sortById items
          else if options.sortByName then Item.sortByName items else items) m'
      | .error e m' => .error e m' := by
  have asked := ask_apply (fun m => m.listingOptions path) (fun options : VolumeOptions => do
    let items ← list path
    return if options.sortById then Item.sortById items
      else if options.sortByName then Item.sortByName items
      else items) m
  refine asked.trans ?_
  rw [known]
  dsimp only
  cases listed : list path m with
  | ok items m' => exact bind_of_ok listed
  | error e m' => exact bind_of_error listed

theorem listSorted_of_lost {e : Failure} (lost : m.listingOptions path = .error e) :
    list path m = .error e m ∧ listSorted path m = .error e m := by
  obtain ⟨below, unresolved⟩ := listingOptions_error lost
  constructor
  · have refused : m.route (.list path) = .error e := by
      simp only [route, Request.source, unresolved, bind, Except.bind]
    have browsed := browse_eq m (.list path) fun _ => below
    rw [refused] at browsed
    exact browsed
  · refine (ask_apply (fun m => m.listingOptions path) _ m).trans ?_
    rw [lost]

theorem listSorted_error_iff {e : Failure} {m' : Mount P} :
    listSorted path m = .error e m' ↔ list path m = .error e m' := by
  cases known : m.listingOptions path with
  | error e' =>
    obtain ⟨listed, sorted⟩ := listSorted_of_lost known
    rw [listed, sorted]
  | ok options =>
    rw [listSorted_of_options known]
    cases list path m with
    | ok items m₁ => simp
    | error e₁ m₁ => rfl

/-- A sorted listing is the listing, stably sorted. -/
theorem listSorted_sorts (m : Mount P) (path : String) :
    (∀ e m', listSorted path m = .error e m' ↔ list path m = .error e m') ∧
    ∀ items m', list path m = .ok items m' → ∃ sorted, listSorted path m = .ok sorted m' ∧
      (m.OrderedById path → StablySorted (·.id) items sorted) ∧
      (¬ m.OrderedById path → m.OrderedByName path →
        StablySorted (fun item => Text.Utf8.encode item.name.toList) items sorted) ∧
      (¬ m.OrderedById path → ¬ m.OrderedByName path → sorted = items) := by
  refine ⟨fun _ _ => listSorted_error_iff, fun items m' listed => ?_⟩
  cases known : m.listingOptions path with
  | error e => cases (listSorted_of_lost known).1.symm.trans listed
  | ok options =>
    rw [listSorted_of_options known, listed]
    refine ⟨_, rfl, fun byId => ?_, fun notById byName => ?_, fun notById notByName => ?_⟩
    · rw [if_pos ((sortById_iff known).mpr byId)]
      exact Item.sortById_sorted items
    · rw [if_neg fun set => notById ((sortById_iff known).mp set),
        if_pos ((sortByName_iff known notById).mpr byName)]
      exact Item.sortByName_sorted items
    · rw [if_neg fun set => notById ((sortById_iff known).mp set),
        if_neg fun set => notByName ((sortByName_iff known notById).mp set)]

end Mount

namespace Rehearsal

def drawer : VolumeScript where
  name := "drawer"
  id := 1
  options := { sortByName := true }
  capabilities := Capabilities.ofList [.list]
  items := [{ id := 4, name := "Óbidos" }, { id := 9, name := "Pad" }, { id := 2, name := "Pad" },
    { id := 7, name := "Choir" }]

def cabinet : Mount Rig where
  device := { link := Link.ofPort "rig:0" { port := .scripted { name := "rig" } } Timing.standard }
  volumes := [drawer.volume]

theorem drawer_sorted : ∃ m sorted, Mount.list "/drawer/" cabinet = .ok drawer.items m ∧
    ¬ cabinet.OrderedById "/drawer/" ∧ cabinet.OrderedByName "/drawer/" ∧
    Mount.listSorted "/drawer/" cabinet = .ok sorted m ∧
    StablySorted (fun item => Text.Utf8.encode item.name.toList) drawer.items sorted := by
  have answered : answer (Mount.list "/drawer/" cabinet) = .ok drawer.items := by decide +kernel
  have listed := eq_ok_of_answer answered
  have resolved : cabinet.resolve "/drawer/" = .ok (drawer.volume, "/") := by rfl
  have byName : cabinet.OrderedByName "/drawer/" := ⟨_, _, resolved, rfl⟩
  have notById : ¬ cabinet.OrderedById "/drawer/" := by
    rintro (root | ⟨v, inner, other, set⟩)
    · exact absurd root (by decide)
    · rw [resolved, Except.ok.injEq, Prod.mk.injEq] at other
      rw [← other.1] at set
      cases set
  obtain ⟨sorted, ordered, -, stably, -⟩ := (Mount.listSorted_sorts cabinet "/drawer/").2 _ _ listed
  exact ⟨_, sorted, listed, notById, byName, ordered, stably notById byName⟩

end Rehearsal

end MidiStorage
