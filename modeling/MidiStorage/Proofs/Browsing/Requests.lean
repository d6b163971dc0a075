import MidiStorage.Browse
import MidiStorage.Proofs.Action
import MidiStorage.Proofs.Browsing.Paths

namespace MidiStorage

open MidiStorage.Action

variable {P α : Type}

/-- A request for one operation. The paths are device paths where a mount is asked, and paths inside
a volume where a volume is. -/
inductive Request : Type → Type
  | list (path : String) : Request (List Item)
  | download (path : String) : Request Bytes
  | upload (path : String) (data : Bytes) : Request Unit
  | rename (source target : String) : Request Unit
  | move (source target : String) : Request Unit
  | copy (source target : String) : Request Unit
  | swap (source target : String) : Request Unit
  | delete (path : String) : Request Unit
  | mkdir (path : String) : Request Unit
  | clear (path : String) : Request Unit

namespace Request

def operation : Request α → Operation
  | list _ => .list
  | download _ => .download
  | upload _ _ => .upload
  | rename _ _ => .rename
  | move _ _ => .move
  | copy _ _ => .copy
  | swap _ _ => .swap
  | delete _ => .delete
  | mkdir _ => .mkdir
  | clear _ => .clear

def source : Request α → String
  | list path | download path | upload path _ | delete path | mkdir path | clear path => path
  | rename source _ | move source _ | copy source _ | swap source _ => source

def target? : Request α → Option String
  | rename _ target | move _ target | copy _ target | swap _ target => some target
  | _ => none

def paths (r : Request α) : List String := r.source :: r.target?.toList

def data? : Request α → Option Bytes
  | upload _ data => some data
  | _ => none

def map (f : String → String) : Request α → Request α
  | list path => list (f path)
  | download path => download (f path)
  | upload path data => upload (f path) data
  | rename source target => rename (f source) (f target)
  | move source target => move (f source) (f target)
  | copy source target => copy (f source) (f target)
  | swap source target => swap (f source) (f target)
  | delete path => delete (f path)
  | mkdir path => mkdir (f path)
  | clear path => clear (f path)

/-- What the request comes to on a volume: a new name is a move where items can be moved. -/
def on (v : Volume P) : Request α → Request α
  | rename source target =>
    if v.capabilities.allows .move then move source target else rename source target
  | r => r

def Declared (r : Request α) (v : Volume P) : Prop :=
  v.capabilities.allows (r.on v).operation = true

def Transfers (r : Request α) : Prop := r.operation = .download ∨ r.operation = .upload

def browse : Request α → Action (Mount P) α
  | list path => Mount.list path
  | download path => Mount.download path
  | upload path data => Mount.upload path data
  | rename source target => Mount.rename source target
  | move source target => Mount.move source target
  | copy source target => Mount.copy source target
  | swap source target => Mount.swap source target
  | delete path => Mount.delete path
  | mkdir path => Mount.mkdir path
  | clear path => Mount.clear path

def perform : Request α → Volume P → Action (Device P) α
  | list path, v => v.readDir path
  | download path, v => v.download path
  | upload path data, v => v.upload path data
  | rename source target, v => v.rename source target
  | move source target, v => v.move source target
  | copy source target, v => v.copy source target
  | swap source target, v => v.swap source target
  | delete path, v => v.delete path
  | mkdir path, v => v.mkdir path
  | clear path, v => v.clear path

def around (v : Volume P) : Request α → Action (Device P) α → Action (Mount P) α
  | download _, operation => Mount.transfer v.options operation
  | upload _ _, operation => Mount.transfer v.options operation
  | _, operation => Mount.onDevice operation

instance (r : Request α) : Decidable r.Transfers := inferInstanceAs (Decidable (_ ∨ _))

theorem around_of_transfers {r : Request α} (transfers : r.Transfers) (v : Volume P)
    (operation : Action (Device P) α) : r.around v operation = Mount.transfer v.options operation := by
  cases r <;> first | rfl | simp [Transfers, Request.operation] at transfers

theorem around_of_not_transfers {r : Request α} (direct : ¬ r.Transfers) (v : Volume P)
    (operation : Action (Device P) α) : r.around v operation = Mount.onDevice operation := by
  cases r <;> first | rfl | simp [Transfers, Request.operation] at direct

end Request

namespace Mount

/-- `path` leads to `inner` in the volume `v`, the first of its name. -/
structure Addresses (m : Mount P) (path : String) (v : Volume P) (inner : String) : Prop where
  splits : DevicePath.Splits path v.name inner
  first : ∃ before after, m.volumes = before ++ v :: after ∧ ∀ u ∈ before, u.name ≠ v.name

theorem volumeNamed?_eq_some_iff {m : Mount P} {name : String} {v : Volume P} :
    m.volumeNamed? name = some v ↔ v.name = name ∧
      ∃ before after, m.volumes = before ++ v :: after ∧ ∀ u ∈ before, u.name ≠ v.name := by
  rw [volumeNamed?, List.find?_eq_some_iff_append, decide_eq_true_eq]
  refine and_congr_right fun named => ?_
  subst named
  simp

theorem resolve_ok_iff {m : Mount P} {path : String} {v : Volume P} {inner : String} :
    m.resolve path = .ok (v, inner) ↔ m.Addresses path v inner := by
  constructor
  · intro resolved
    unfold resolve at resolved
    split at resolved
    · cases resolved
    · rename_i name inner' splits
      split at resolved
      · cases resolved
      · rename_i w found
        cases resolved
        obtain ⟨rfl, first⟩ := volumeNamed?_eq_some_iff.mp found
        exact ⟨DevicePath.split_ok_iff.mp splits, first⟩
  · rintro ⟨splits, first⟩
    have found : m.volumeNamed? v.name = some v := volumeNamed?_eq_some_iff.mpr ⟨rfl, first⟩
    simp only [resolve, DevicePath.split_ok_iff.mpr splits, found]

theorem resolve_of_error {m : Mount P} {path : String} {e : Failure} (failed : m.resolve path = .error e) :
    e = .invalidPath path ∧ ∀ v inner, ¬ m.Addresses path v inner := by
  constructor
  · unfold resolve at failed
    split at failed
    · cases failed
      exact DevicePath.split_of_error ‹_›
    · split at failed
      · cases failed
        rfl
      · cases failed
  · intro v inner addresses
    rw [resolve_ok_iff.mpr addresses] at failed
    cases failed

/-- The path inside the volume that a path leads to; a path that leads nowhere stays as it is. -/
def inside (m : Mount P) (path : String) : String :=
  match m.resolve path with
  | .ok (_, inner) => inner
  | .error _ => path

def destined (m : Mount P) (v : Volume P) (op : Operation) : Option String → Except Failure Unit
  | none => .ok ()
  | some target =>
    match m.resolve target with
    | .ok (w, _) => if w.id = v.id then .ok () else .error (.invalidPath target)
    | .error e => if op = .rename then .ok () else .error e

def route (m : Mount P) (r : Request α) : Except Failure (Volume P) := do
  let (v, _) ← m.resolve r.source
  if v.capabilities.allows (r.on v).operation then
    m.destined v (r.on v).operation r.target?
    return v
  else .error (.notSupported (r.on v).operation.name)

section Route

variable {m : Mount P} {r : Request α}

theorem ask_apply {β : Type} (f : Mount P → Except Failure β) (k : β → Action (Mount P) α)
    (m : Mount P) : (get >>= fun m => Action.ofExcept (f m) >>= k) m = match f m with
      | .ok x => k x m
      | .error e => .error e m := by
  rw [bind_of_ok (get_apply m)]
  cases asked : f m with
  | ok x => exact bind_of_ok (ofExcept_ok x m)
  | error e => exact bind_of_error (ofExcept_error e m)

theorem resolveFor_eq (plain : ∀ v : Volume P, r.on v = r) (alone : r.target? = none) :
    m.resolveFor r.operation r.source = (m.route r).map fun v => (v, m.inside r.source) := by
  unfold resolveFor route inside
  cases m.resolve r.source with
  | error e => rfl
  | ok place =>
    obtain ⟨v, inner⟩ := place
    dsimp only [bind, Except.bind]
    rw [plain v, alone]
    split_ifs
    · rfl
    · rfl

theorem resolvePair_eq (plain : ∀ v : Volume P, r.on v = r) (path : r.operation ≠ .rename)
    {target : String} (paired : r.target? = some target) :
    m.resolvePair r.operation r.source target =
      (m.route r).map fun v => (v, m.inside r.source, m.inside target) := by
  unfold resolvePair resolveFor route inside
  cases m.resolve r.source with
  | error e => rfl
  | ok place =>
    obtain ⟨v, inner⟩ := place
    dsimp only [bind, Except.bind]
    rw [plain v, paired]
    by_cases declared : v.capabilities.allows r.operation = true
    · rw [if_pos declared, if_pos declared]
      dsimp only [destined]
      cases m.resolve target with
      | error e =>
        dsimp only
        rw [if_neg path]
        rfl
      | ok place =>
        obtain ⟨w, targetInner⟩ := place
        dsimp only
        split_ifs
        · rfl
        · rfl
    · rw [if_neg declared, if_neg declared]
      rfl

theorem route_of_resolve {v : Volume P} {inner : String} (resolved : m.resolve r.source = .ok (v, inner)) :
    m.route r = if v.capabilities.allows (r.on v).operation then
        (m.destined v (r.on v).operation r.target?).map fun _ => v
      else .error (.notSupported (r.on v).operation.name) := by
  unfold route
  rw [resolved]
  dsimp only [bind, Except.bind]
  split_ifs
  · cases m.destined v (r.on v).operation r.target? <;> rfl
  · rfl

theorem route_ok {v : Volume P} (routed : m.route r = .ok v) :
    ∃ inner, m.resolve r.source = .ok (v, inner) ∧ r.Declared v ∧
      m.destined v (r.on v).operation r.target? = .ok () := by
  cases resolved : m.resolve r.source with
  | error e =>
    simp only [route, resolved, bind, Except.bind] at routed
    cases routed
  | ok place =>
    obtain ⟨w, inner⟩ := place
    rw [route_of_resolve resolved] at routed
    split_ifs at routed with declared
    cases destined : m.destined w (r.on w).operation r.target? with
    | error e =>
      rw [destined] at routed
      cases routed
    | ok _ =>
      rw [destined] at routed
      cases routed
      exact ⟨inner, rfl, declared, destined⟩

theorem route_error {e : Failure} (routed : m.route r = .error e) :
    m.resolve r.source = .error e ∨ ∃ v inner, m.resolve r.source = .ok (v, inner) ∧
      (¬ r.Declared v ∧ e = .notSupported (r.on v).operation.name ∨
        r.Declared v ∧ m.destined v (r.on v).operation r.target? = .error e) := by
  cases resolved : m.resolve r.source with
  | error e' =>
    simp only [route, resolved, bind, Except.bind] at routed
    cases routed
    exact Or.inl rfl
  | ok place =>
    obtain ⟨v, inner⟩ := place
    refine Or.inr ⟨v, inner, rfl, ?_⟩
    rw [route_of_resolve resolved] at routed
    split_ifs at routed with declared
    · cases destined : m.destined v (r.on v).operation r.target? with
      | error e' =>
        rw [destined] at routed
        cases routed
        exact Or.inr ⟨declared, rfl⟩
      | ok _ =>
        rw [destined] at routed
        cases routed
    · cases routed
      exact Or.inl ⟨declared, rfl⟩

theorem ask_one (plain : ∀ v : Volume P, r.on v = r) (alone : r.target? = none)
    (k : Volume P → String → Action (Mount P) α) :
    (do
      let (v, inner) ← Action.ofExcept ((← get).resolveFor r.operation r.source)
      k v inner : Action (Mount P) α) m = match m.route r with
        | .ok v => k v (m.inside r.source) m
        | .error e => .error e m := by
  refine (ask_apply (fun m => m.resolveFor r.operation r.source) _ m).trans ?_
  rw [resolveFor_eq plain alone]
  cases m.route r with
  | error e => rfl
  | ok v => rfl

theorem ask_two (plain : ∀ v : Volume P, r.on v = r) (path : r.operation ≠ .rename) {target : String}
    (paired : r.target? = some target) (k : Volume P → String → String → Action (Mount P) α) :
    (do
      let (v, source, target) ← Action.ofExcept ((← get).resolvePair r.operation r.source target)
      k v source target : Action (Mount P) α) m = match m.route r with
        | .ok v => k v (m.inside r.source) (m.inside target) m
        | .error e => .error e m := by
  refine (ask_apply (fun m => m.resolvePair r.operation r.source target) _ m).trans ?_
  rw [resolvePair_eq plain path paired]
  cases m.route r with
  | error e => rfl
  | ok v => rfl

theorem move_eq (m : Mount P) (source target : String) :
    move source target m = match m.route (.move source target) with
      | .ok v => onDevice (v.move (m.inside source) (m.inside target)) m
      | .error e => .error e m :=
  ask_two (r := .move source target) (fun _ => rfl) (by simp [Request.operation]) rfl
    fun v source target => onDevice (v.move source target)

theorem renameTarget_eq (m : Mount P) (v : Volume P) (target : String) :
    m.renameTarget v target = (m.destined v .rename (some target)).map fun _ => m.inside target := by
  unfold renameTarget inside
  dsimp only [destined]
  cases m.resolve target with
  | error e => rfl
  | ok place =>
    obtain ⟨w, inner⟩ := place
    dsimp only
    split_ifs
    · rfl
    · rfl

theorem rename_eq (m : Mount P) (source target : String) :
    rename source target m = match m.route (.rename source target) with
      | .ok v => onDevice ((((Request.rename source target).on v).map m.inside).perform v) m
      | .error e => .error e m := by
  unfold rename
  rw [bind_of_ok (get_apply m)]
  cases resolved : m.resolve source with
  | error e =>
    have lost : m.route (.rename source target) = .error e := by
      simp only [route, Request.source, resolved, bind, Except.bind]
    rw [bind_of_error (ofExcept_error e m), lost]
  | ok place =>
    obtain ⟨v, inner⟩ := place
    rw [bind_of_ok (ofExcept_ok (v, inner) m)]
    dsimp only
    -- a move resolves the source anew, so both branches meet `v` a second time
    by_cases moves : v.capabilities.allows .move = true
    · have asked : (Request.rename source target).on v = .move source target := if_pos moves
      have same : m.route (.rename source target) = m.route (.move source target) := by
        rw [route_of_resolve (r := .rename source target) resolved,
          route_of_resolve (r := .move source target) resolved, asked]
        rfl
      rw [if_pos moves, move_eq, same]
      cases routed : m.route (.move source target) with
      | error e => rfl
      | ok w =>
        obtain ⟨_, found, -, -⟩ := route_ok routed
        cases resolved.symm.trans found
        dsimp only
        rw [asked]
        rfl
    · have asked : (Request.rename source target).on v = .rename source target := if_neg moves
      have route := route_of_resolve (r := .rename source target) resolved
      rw [asked] at route
      rw [if_neg moves]
      by_cases declared : v.capabilities.allows .rename = true
      · have opened : m.resolveFor .rename source = .ok (v, inner) := by
          simp only [resolveFor, resolved, if_pos declared]
        have place : m.inside source = inner := by simp only [inside, resolved]
        rw [opened, bind_of_ok (ofExcept_ok (v, inner) m), route.trans (if_pos declared)]
        dsimp only
        rw [renameTarget_eq]
        dsimp only [Request.operation, Request.target?]
        cases m.destined v .rename (some target) with
        | error e => rfl
        | ok _ =>
          dsimp only [Except.map]
          rw [asked, ← place]
          rfl
      · have refused : m.resolveFor .rename source = .error (.notSupported Operation.rename.name) := by
          simp only [resolveFor, resolved, if_neg declared]
        rw [refused, route.trans (if_neg declared)]
        rfl

theorem browse_eq (m : Mount P) (r : Request α)
    (inner : r.operation = .list → DevicePath.isRoot r.source = false) :
    r.browse m = match m.route r with
      | .ok v => r.around v (((r.on v).map m.inside).perform v) m
      | .error e => .error e m := by
  cases r with
  | list path =>
    -- below the root of the device a listing asks for its volume like the rest
    have entered : list path m = (do
        let (v, dir) ← Action.ofExcept ((← get).resolveFor .list path)
        onDevice (v.readDir dir) : Action (Mount P) (List Item)) m := by
      have deeper : DevicePath.isRoot path = false := inner rfl
      unfold list
      rw [bind_of_ok (get_apply m), deeper]
      rfl
    exact entered.trans <| ask_one (r := .list path) (fun _ => rfl) rfl
      fun v dir => onDevice (v.readDir dir)
  | download path =>
    exact ask_one (r := .download path) (fun _ => rfl) rfl
      fun v inner => transfer v.options (v.download inner)
  | upload path data =>
    exact ask_one (r := .upload path data) (fun _ => rfl) rfl
      fun v inner => transfer v.options (v.upload inner data)
  | rename source target => exact rename_eq m source target
  | move source target => exact move_eq m source target
  | copy source target =>
    exact ask_two (r := .copy source target) (fun _ => rfl) (by simp [Request.operation]) rfl
      fun v source target => onDevice (v.copy source target)
  | swap source target =>
    exact ask_two (r := .swap source target) (fun _ => rfl) (by simp [Request.operation]) rfl
      fun v source target => onDevice (v.swap source target)
  | delete path =>
    exact ask_one (r := .delete path) (fun _ => rfl) rfl fun v inner => onDevice (v.delete inner)
  | mkdir path =>
    exact ask_one (r := .mkdir path) (fun _ => rfl) rfl fun v inner => onDevice (v.mkdir inner)
  | clear path =>
    exact ask_one (r := .clear path) (fun _ => rfl) rfl fun v inner => onDevice (v.clear inner)

end Route

end Mount

end MidiStorage
