import MidiStorage.Proofs.Eventide.Mounting
import MidiStorage.Proofs.Eventide.Recopying
import MidiStorage.Proofs.Transfer.Faults

namespace MidiStorage

open MidiStorage.Action

variable {P α : Type}

theorem Mount.list_of_root {m : Mount P} {path : String} (root : DevicePath.isRoot path = true) :
    Mount.list path m = .ok (m.volumes.map fun v => { id := v.id, name := v.name, kind := .directory }) m := by
  unfold Mount.list
  rw [bind_of_ok (get_apply m), root]
  rfl

theorem Mount.onDevice_eq_error {a : Action (Device P) α} {m m' : Mount P} {e : Failure} :
    Mount.onDevice a m = .error e m' ↔ ∃ d, a m.device = .error e d ∧ m' = { m with device := d } := by
  cases run : a m.device with
  | ok x d => simp [Mount.onDevice_of_ok run]
  | error e₁ d =>
    rw [Mount.onDevice_of_error run]
    constructor
    · intro same
      cases same
      exact ⟨d, rfl, rfl⟩
    · rintro ⟨d, same, rfl⟩
      cases same
      rfl

theorem Mount.transfer_state {options : VolumeOptions} {method : Action (Device P) α} {m : Mount P}
    (active : ¬ m.device.Cancelled) :
    (final (Mount.transfer options method m)).device.state =
      (final (method (m.device.handed options))).state := by
  cases run : method (m.device.handed options) with
  | error e d =>
    rw [Mount.transfer_of_error active run]
    rfl
  | ok x d =>
    by_cases cancelled : d.Cancelled
    · rw [Mount.transfer_of_interrupted active run cancelled]
      rfl
    · rw [Mount.transfer_of_ok active run cancelled]
      unfold final Device.completed
      dsimp only
      split_ifs <;> rfl

theorem Fault.unlimited {watched : Bool} {limit : Option Nat} {e : Failure} (fault : Fault watched none e) :
    Fault watched limit e := by
  cases fault with
  | io reason => exact .io reason
  | timedOut waits => cases waits
  | cancelled job => exact .cancelled job

theorem DevicePath.id_of_error {path : String} {e : Failure} (failed : DevicePath.id path = .error e) :
    e = .invalidPath path := by
  unfold DevicePath.id DevicePath.idName at failed
  dsimp only at failed
  split at failed
  · cases failed
    rfl
  · cases failed

/-- Work is broken off only for its job. -/
def Cancels (watched : Bool) (e : Failure) : Prop := watched = true ∧ e = .cancelled

theorem Cancels.fault {watched : Bool} {limit : Option Nat} {e : Failure} (cancels : Cancels watched e) :
    Fault watched limit e := by
  obtain ⟨job, rfl⟩ := cancels
  exact .cancelled job

namespace Run

theorem check_cancels (watched : Bool) : FailsWith (Cancels watched) (Run.check watched) := by
  refine (FailsWith.get _).bind fun r => ?_
  split_ifs with stopped
  · rw [Bool.and_eq_true] at stopped
    exact .throw ⟨stopped.1, rfl⟩
  · exact .pure _ ()

theorem pause_cancels (watched : Bool) (duration poll : Nat) :
    FailsWith (Cancels watched) (Run.pause watched duration poll) := by
  have now_cancels : FailsWith (Cancels watched) Run.now := by
    intro r e r' run
    unfold Run.now at run
    split at run <;> cases run
  have rounds_cancel (start rounds : Nat) :
      FailsWith (Cancels watched) (Run.pauseRounds watched duration poll start rounds) := by
    induction rounds with
    | zero => exact .pure _ ()
    | succ rounds ih =>
      refine (check_cancels watched).bind fun _ => now_cancels.bind fun time => ?_
      dsimp only
      split_ifs with late
      · exact .pure _ ()
      · exact (FailsWith.modify _ _).bind fun _ => ih
  exact now_cancels.bind fun start => (FailsWith.get _).bind fun _ => rounds_cancel start _

end Run

namespace Link

theorem pause_cancels (watched : Bool) (duration : Nat) :
    FailsWith (Cancels watched) (pause (P := P) watched duration) :=
  (FailsWith.get _).bind fun _ => (Run.pause_cancels _ _ _).within.bind fun _ => .modify _ _

theorem pause_unwatched (duration : Nat) (l : Link P) :
    ∃ run, pause false duration l = .ok () { l with run, journal := l.journal ++ [.paused duration] } := by
  unfold pause
  rw [bind_of_ok (get_apply l)]
  cases paused : Run.pause false duration l.timing.pollInterval l.run with
  | ok u run =>
    rw [bind_of_ok (onRun_of_ok paused)]
    exact ⟨run, rfl⟩
  | error e run =>
    -- only a job could have broken it off
    cases (Run.pause_cancels _ _ _ _ _ _ paused).1

variable [Port P]

theorem transmitAll_fails (message : Bytes) (watched : Bool) :
    FailsWith (Fault watched none) (transmitAll (P := P) message watched) := by
  intro l e l' failed
  cases sent : Exchange.sendSlices watched (message.slices Transfer.sliceSize) l with
  | ok u l₁ =>
    rw [transmitAll_of_ok sent] at failed
    cases failed
  | error e₁ l₁ =>
    rw [transmitAll_of_error sent] at failed
    cases failed
    exact Exchange.sendSlices_fails _ _ _ _ _ _ sent

end Link

namespace Eventide

def Pedal.Names (p : Pedal) (path : String) : Prop :=
  ∃ id, DevicePath.id path = .ok id ∧ p.first ≤ id ∧ id < p.first + p.count

section Names

variable {p : Pedal} {path : String}

theorem Pedal.names_of_index {id index : Nat} (parsed : DevicePath.id path = .ok id)
    (inside : p.index id path = .ok index) : p.Names path := by
  obtain ⟨above, below, -⟩ := (p.index_ok_iff id path index).mp inside
  exact ⟨id, parsed, above, by omega⟩

theorem Pedal.Names.exists_index (names : p.Names path) :
    ∃ id index, DevicePath.id path = .ok id ∧ p.index id path = .ok index := by
  obtain ⟨id, parsed, above, below⟩ := names
  exact ⟨id, id - p.first, parsed, (p.index_ok_iff id path _).mpr ⟨above, by omega, rfl⟩⟩

theorem Pedal.index_of_error {id : Nat} {e : Failure} (failed : p.index id path = .error e) :
    e = .invalidPath path := by
  unfold Pedal.index at failed
  split_ifs at failed
  cases failed
  rfl

theorem locate_unnamed {σ α : Type} (unnamed : ¬ p.Names path) (k : Nat → Nat → Action σ α) (s : σ) :
    (do
      let id ← Action.ofExcept (DevicePath.id path)
      let index ← Action.ofExcept (p.index id path)
      k id index : Action σ α) s = .error (.invalidPath path) s := by
  cases parsed : DevicePath.id path with
  | error e =>
    obtain rfl := DevicePath.id_of_error parsed
    rw [bind_of_error (ofExcept_error _ s)]
  | ok id =>
    rw [bind_of_ok (ofExcept_ok id s)]
    cases inside : p.index id path with
    | error e =>
      obtain rfl := Pedal.index_of_error inside
      rw [bind_of_error (ofExcept_error _ s)]
    | ok index => exact absurd (Pedal.names_of_index parsed inside) unnamed

theorem Pedal.targets_iff {data : Bytes} :
    (∃ index message, p.Targets path data index message) ↔ p.Names path ∧ Storable data := by
  constructor
  · rintro ⟨index, message, id, parsed, inside, encoded⟩
    exact ⟨Pedal.names_of_index parsed inside, (retarget_eq_ok_iff.mp encoded).1⟩
  · rintro ⟨names, storable⟩
    obtain ⟨id, index, parsed, inside⟩ := names.exists_index
    exact ⟨index, _, id, parsed, inside, storable.sent p.deviceId id⟩

end Names

namespace Presets

def Fits (target : String) : Prop :=
  (newName target).toList ≠ [] ∧ ∀ c ∈ (newName target).toList, Text.isControl c = false

theorem fits_iff (target : String) :
    Fits target ↔
      ((newName target).toList.isEmpty || (newName target).toList.any Text.isControl) = false := by
  simp [Fits]

variable {d d' : Device P} {p : Pedal} {path : String} {watched : Bool} {e : Failure}

variable [Port P]

def bulkTransfer (watched : Bool) : Transfer where
  raw := bulkRequest
  timeout := bulkTimeout
  cacheable := false
  watched := watched

theorem bulkRead_of_ok {dump : Bytes} {l : Link P}
    (heard : Link.exchange (bulkTransfer watched) d.link = .ok dump l) :
    bulkRead p watched d = .ok (Preset.ofDump dump)
      ({ d with link := l }.setState (.pedal { p with bank := some (Preset.ofDump dump) })) := by
  have exchanged : Device.onLink (Link.exchange (bulkTransfer watched)) d = .ok dump { d with link := l } :=
    Device.onLink_of_ok heard
  exact bind_of_ok exchanged

theorem bulkRead_of_error {l : Link P} (broken : Link.exchange (bulkTransfer watched) d.link = .error e l) :
    bulkRead p watched d = .error e { d with link := l } := by
  have exchanged : Device.onLink (Link.exchange (bulkTransfer watched)) d = .error e { d with link := l } :=
    Device.onLink_of_error broken
  exact bind_of_error exchanged

theorem bulkRead_dumped {bank : List Preset} (read : bulkRead p watched d = .ok bank d') :
    ∃ dump, bank = Preset.ofDump dump := by
  cases inner : Link.exchange (bulkTransfer watched) d.link with
  | ok dump l =>
    rw [bulkRead_of_ok inner] at read
    cases read
    exact ⟨dump, rfl⟩
  | error e l =>
    rw [bulkRead_of_error inner] at read
    cases read

theorem bulkRead_error (failed : bulkRead p watched d = .error e d') :
    d'.state = d.state ∧ Fault watched (some bulkTimeout) e := by
  cases inner : Link.exchange (bulkTransfer watched) d.link with
  | ok reply l =>
    rw [bulkRead_of_ok inner] at failed
    cases failed
  | error e₁ l =>
    rw [bulkRead_of_error inner] at failed
    cases failed
    refine ⟨rfl, ?_⟩
    rcases Link.exchange_error inner with ⟨-, fault⟩ | ⟨-, fault⟩
    · exact fault.unlimited
    · exact fault

theorem fetch_error (failed : fetch p watched d = .error e d') :
    d'.state = d.state ∧ Fault watched (some bulkTimeout) e := by
  cases old : p.bank with
  | none =>
    rw [fetch_unread old] at failed
    exact bulkRead_error failed
  | some bank =>
    rw [fetch_again old] at failed
    cases paused : Link.pause watched d.link.timing.settlePause d.link with
    | error e₁ l =>
      rw [bind_of_error (Device.onLink_of_error paused)] at failed
      cases failed
      exact ⟨rfl, (Link.pause_cancels _ _ _ _ _ paused).fault⟩
    | ok u l =>
      rw [bind_of_ok (Device.onLink_of_ok paused)] at failed
      obtain ⟨state, fault⟩ := bulkRead_error failed
      exact ⟨state, fault⟩

theorem read_unnamed (unnamed : ¬ p.Names path) : read p path watched d = .error (.invalidPath path) d :=
  locate_unnamed unnamed _ d

theorem read_fetched (names : p.Names path) (unread : p.bank = none) (watched : Bool) (d : Device P) :
    ∃ index, read p path watched d =
      (fetch p watched >>= fun bank => Action.ofExcept (entry bank index path)) d := by
  obtain ⟨id, index, parsed, inside⟩ := names.exists_index
  exact ⟨index, by rw [read_unread parsed inside unread, fetch_unread unread]⟩

theorem fetch_state {bank : List Preset} (fetched : fetch p watched d = .ok bank d') :
    d'.state = some (.pedal { p with bank := some bank }) := by
  cases old : p.bank with
  | none =>
    rw [fetch_unread old] at fetched
    exact (bulkRead_ok fetched).1
  | some before =>
    rw [fetch_again old] at fetched
    obtain ⟨u, d₁, -, read⟩ := bind_eq_ok.mp fetched
    exact (bulkRead_ok read).1

theorem read_left (p : Pedal) (path : String) (watched : Bool) (d : Device P) :
    (final (read p path watched d)).state = d.state ∨
      p.Names path ∧ p.bank = none ∧
        ∃ bank, fetch p watched d = .ok bank (final (read p path watched d)) := by
  by_cases names : p.Names path
  · cases old : p.bank with
    | some bank =>
      obtain ⟨id, index, parsed, inside⟩ := names.exists_index
      rw [read_kept parsed inside old]
      exact .inl (Preserves.ofExcept (·.state = d.state) _ d rfl)
    | none =>
      obtain ⟨index, reads⟩ := read_fetched names old watched d
      rw [reads]
      cases fetched : fetch p watched d with
      | error e d₁ =>
        rw [bind_of_error fetched]
        exact .inl (fetch_error fetched).1
      | ok bank d₁ =>
        have left : final (Action.ofExcept (entry bank index path) d₁) = d₁ :=
          Preserves.ofExcept (· = d₁) _ d₁ rfl
        rw [bind_of_ok fetched, left]
        exact .inr ⟨names, rfl, bank, rfl⟩
  · rw [read_unnamed names]
    exact .inl rfl

theorem listen_fails (watched : Bool) : FailsWith (Fault watched none) (listen (P := P) watched) := by
  intro l e l' failed
  rw [listen, bind_of_ok (get_apply l)] at failed
  generalize waiting : ({ raw := [], timeout := l.timing.silenceWindow, watched } : Transfer) = t at failed
  have belongs : t.watched = watched := by rw [← waiting]
  cases heard : Exchange.collect { t with phase := .receiving } l with
  | ok bytes l₁ =>
    rw [bind_of_ok (outcome_of_ok (Link.withTransfer_of_ok (Exchange.receive_of_ok heard)))] at failed
    cases failed
    exact .io _
  | error e₁ l₁ =>
    have fault := Exchange.collect_fails { t with phase := .receiving } _ _ _ heard
    rw [bind_of_ok (outcome_of_error (Link.withTransfer_of_error (Exchange.receive_of_error heard)))] at failed
    cases fault with
    | io reason =>
      cases failed
      exact .io reason
    | timedOut waits => cases failed
    | cancelled job =>
      cases failed
      exact .cancelled (belongs ▸ job)

section Store

variable {data : Bytes} (known : d.state = some (.pedal p))

include known

theorem store_unnamed (unnamed : ¬ p.Names path) :
    store path data watched d = .error (.invalidPath path) d := by
  rw [store, bind_of_ok (pedal_of_state known)]
  exact locate_unnamed unnamed _ d

theorem store_unstorable (names : p.Names path) (unstorable : ¬ Storable data) (watched : Bool) :
    ∃ text, store path data watched d = .error (.badMessage text) d := by
  obtain ⟨id, index, parsed, inside⟩ := names.exists_index
  cases encoded : retarget data p.deviceId id with
  | ok message => exact absurd (retarget_eq_ok_iff.mp encoded).1 unstorable
  | error e =>
    obtain ⟨text, rfl⟩ := retarget_refused encoded
    refine ⟨text, ?_⟩
    rw [store, bind_of_ok (pedal_of_state known), parsed, bind_of_ok (ofExcept_ok id d), inside,
      bind_of_ok (ofExcept_ok index d), encoded, bind_of_error (ofExcept_error _ d)]

theorem store_fault {index : Nat} {message : Bytes} (targets : p.Targets path data index message)
    (failed : store path data watched d = .error e d') : Fault watched none e := by
  have ended := store_stored known targets watched
  rw [failed] at ended
  cases ended with
  | unsent unsent => exact Link.transmitAll_fails _ _ _ _ _ unsent
  | disturbed _ disturbed => exact listen_fails _ _ _ _ disturbed
  | stopped _ _ stopped => exact .cancelled stopped.1

theorem store_error_state (failed : store path data false d = .error e d') : d'.state = d.state := by
  by_cases targeted : ∃ index message, p.Targets path data index message
  · obtain ⟨index, message, targets⟩ := targeted
    have ended := store_stored known targets false
    rw [failed] at ended
    cases ended with
    | unsent => rfl
    | disturbed => rfl
    | stopped _ _ stopped =>
      -- the bank is refreshed by then, but without a job there is nothing to stop for
      cases stopped.1
  · rw [Pedal.targets_iff, not_and] at targeted
    by_cases names : p.Names path
    · obtain ⟨text, refused⟩ := store_unstorable known names (targeted names) false
      rw [refused] at failed
      cases failed
      rfl
    · rw [store_unnamed known names] at failed
      cases failed
      rfl

end Store

section Operations

variable {data : Bytes} {source target : String}

theorem list_root (known : d.state = some (.pedal p)) :
    list "/" d = (fetch p false >>= fun bank => pure (items p bank) : Action (Device P) (List Item)) d := by
  unfold list
  rw [if_neg (not_not.mpr rfl)]
  exact bind_of_ok (pedal_of_state known)

theorem list_elsewhere {dir : String} (other : dir ≠ "/") :
    list (P := P) dir d = .error (.notADirectory dir) d := by
  unfold list
  rw [if_pos other]
  exact bind_of_error (throw_apply _ d)

def handOut (preset : Preset) : Action (Device P) Bytes := do
  Device.onLink (Link.check true)
  Device.onLink (Link.report (·.advance 1.0))
  pure preset.toMessage

theorem download_eq (known : d.state = some (.pedal p)) :
    download path d = (read p path true >>= handOut) { d with link := d.link.started } := by
  rw [download, bind_of_ok (start_apply d)]
  exact bind_of_ok (pedal_of_state (d := { d with link := d.link.started }) known)

omit [Port P] in
theorem handOut_moves (preset : Preset) (d : Device P) :
    ∃ run, final (handOut preset d) = { d with link := { d.link with run } } := by
  unfold handOut
  by_cases stopped : Link.Stopped true d.link
  · rw [bind_of_error (Device.onLink_of_error (Link.check_of_stopped stopped))]
    exact ⟨d.link.run, rfl⟩
  · rw [bind_of_ok (Device.onLink_of_ok (Link.check_of_not_stopped stopped))]
    exact ⟨_, rfl⟩

theorem list_error (known : d.state = some (.pedal p)) {dir : String} (failed : list dir d = .error e d') :
    d'.state = d.state := by
  by_cases root : dir = "/"
  · subst root
    rw [list_root known] at failed
    rcases bind_eq_error.mp failed with broken | ⟨bank, d₁, -, listed⟩
    · exact (fetch_error broken).1
    · cases listed
  · rw [list_elsewhere root] at failed
    cases failed
    rfl

theorem download_left (path : String) (known : d.state = some (.pedal p)) :
    (final (download path d)).state = d.state ∨
      p.Names path ∧ p.bank = none ∧ ∃ bank d₁,
        fetch p true { d with link := d.link.started } = .ok bank d₁ ∧
          (final (download path d)).state = d₁.state := by
  rw [download_eq known]
  have left := read_left p path true { d with link := d.link.started }
  have same : (final ((read p path true >>= handOut) { d with link := d.link.started })).state =
      (final (read p path true { d with link := d.link.started })).state := by
    cases found : read p path true { d with link := d.link.started } with
    | error e d₁ =>
      rw [bind_of_error found]
      rfl
    | ok preset d₁ =>
      obtain ⟨run, moved⟩ := handOut_moves preset d₁
      rw [bind_of_ok found, moved]
      rfl
  rw [same]
  exact left.imp_right fun ⟨names, unread, bank, fetched⟩ => ⟨names, unread, bank, _, fetched, rfl⟩

theorem rename_unparsed (unparsed : ∀ id, DevicePath.id source ≠ .ok id) :
    rename source target d = .error (.invalidPath source) d := by
  cases parsed : DevicePath.id source with
  | ok id => exact absurd parsed (unparsed id)
  | error e =>
    obtain rfl := DevicePath.id_of_error parsed
    rw [rename, parsed, bind_of_error (ofExcept_error _ d)]

theorem rename_unfit {id : Nat} (parsed : DevicePath.id source = .ok id) (unfit : ¬ Fits target) :
    rename source target d = .error (.invalidPath target) d := by
  rw [fits_iff, Bool.not_eq_false] at unfit
  rw [rename, parsed, bind_of_ok (ofExcept_ok id d)]
  simp only [unfit, ↓reduceIte]
  exact bind_of_error (throw_apply _ d)

theorem rename_fit (known : d.state = some (.pedal p)) {id : Nat} (parsed : DevicePath.id source = .ok id)
    (fits : Fits target) :
    rename source target d = (read p source false >>= fun preset =>
      store ("/" ++ toString id) (renamed preset target).toMessage false) d := by
  rw [fits_iff] at fits
  rw [rename, parsed, bind_of_ok (ofExcept_ok id d)]
  simp only [fits, Bool.false_eq_true, ↓reduceIte]
  exact bind_of_ok (pedal_of_state known)

theorem rename_left (known : d.state = some (.pedal p)) (failed : rename source target d = .error e d') :
    d'.state = d.state ∨
      p.Names source ∧ Fits target ∧ p.bank = none ∧ ∃ bank d₁,
        fetch p false d = .ok bank d₁ ∧ d'.state = d₁.state := by
  cases parsed : DevicePath.id source with
  | error e₁ =>
    rw [rename_unparsed fun id parses => by rw [parsed] at parses; cases parses] at failed
    cases failed
    exact .inl rfl
  | ok id =>
    by_cases fits : Fits target
    · rw [rename_fit known parsed fits] at failed
      have left := read_left p source false d
      have same : d'.state = (final (read p source false d)).state := by
        cases found : read p source false d with
        | error e₁ d₁ =>
          rw [bind_of_error found] at failed
          cases failed
          rfl
        | ok preset d₁ =>
          rw [bind_of_ok found] at failed
          rw [found] at left
          rcases left with same | ⟨-, -, bank, fetched⟩
          · exact store_error_state (same.trans known) failed
          · exact store_error_state (fetch_state fetched) failed
      rw [same]
      exact left.imp_right fun ⟨names, unread, bank, fetched⟩ =>
        ⟨names, fits, unread, bank, _, fetched, rfl⟩
    · rw [rename_unfit parsed fits] at failed
      cases failed
      exact .inl rfl

end Operations

end Presets

/-- The device of a download or an upload: its job begins with the transfer, and again with the
operation. -/
def begun (d : Device P) : Device P := { d with link := d.link.started.started }

/-- A request begins with reading the bank: what was wrong with it would have been found before. -/
inductive BulkReads [Port P] (m : Mount P) (p : Pedal) :
    {α : Type} → Request α → (watched : Bool) → Device P → Prop
  | list {path : String} (root : Slots.inside path = .ok "/") : BulkReads m p (.list path) false m.device
  | download {path inner : String} (named : Slots.inside path = .ok inner) (names : p.Names inner)
    (unread : p.bank = none) : BulkReads m p (.download path) true (begun m.device)
  | rename {source inner target : String} (named : Slots.inside source = .ok inner)
    (names : p.Names inner) (fits : Presets.Fits (m.inside target)) (unread : p.bank = none) :
    BulkReads m p (.rename source target) false m.device

section Browse

open Presets

variable [Port P] {m : Mount P} {p : Pedal} {r : Request α} {e : Failure} (serves : Serves p m)
  (active : ¬ m.device.Cancelled)

include serves

include active

theorem download_failed {path inner : String} (named : Slots.inside path = .ok inner) {d : Device P}
    (failed : (read p inner true >>= handOut) (begun m.device) = .error e d) :
    Mount.download path m = .error e { m with device := d } := by
  have method : download inner (m.device.handed (presetVolume P).options) = .error e d := by
    rw [Presets.download_eq (d := m.device.handed (presetVolume P).options) serves.state]
    exact failed
  rw [serves.download_eq named]
  exact Mount.transfer_of_error active method

theorem failed_of_bulkReads {watched : Bool} {d d' : Device P} (reads : BulkReads m p r watched d)
    (failed : fetch p watched d = .error e d') : r.browse m = .error e { m with device := d' } := by
  cases reads with
  | list root =>
    have listed : list "/" m.device = .error e d' := by
      rw [list_root serves.state, bind_of_error failed]
    exact (serves.list_eq root).trans (Mount.onDevice_of_error listed)
  | download named names unread =>
    obtain ⟨index, reads⟩ := read_fetched names unread true (begun m.device)
    rw [bind_of_error failed] at reads
    exact download_failed serves active named (bind_of_error reads)
  | rename named names fits unread =>
    obtain ⟨index, reads⟩ := read_fetched names unread false m.device
    rw [bind_of_error failed] at reads
    obtain ⟨id, parsed, -⟩ := names
    refine (serves.rename_eq named _).trans (Mount.onDevice_of_error ?_)
    rw [rename_fit serves.state parsed fits, bind_of_error reads]

/-- A request other than an upload that fails leaves the bank as it was, unless it has read a bank,
which then is kept. -/
theorem failed_state (other : r.operation ≠ .upload) {m' : Mount P} (failed : r.browse m = .error e m') :
    m'.device.state = m.device.state ∨
      ∃ watched d bank d', BulkReads m p r watched d ∧ fetch p watched d = .ok bank d' ∧
        m'.device.state = d'.state := by
  cases named : Slots.inside r.source with
  | error e₁ =>
    have below : r.operation = .list → DevicePath.isRoot r.source = false := by
      intro listing
      cases r with
      | list path =>
        rw [← Bool.not_eq_true]
        intro root
        cases (Mount.list_of_root root).symm.trans failed
      | _ => cases listing
    rw [serves.browse_lost named below] at failed
    cases failed
    exact .inl rfl
  | ok inner =>
    by_cases offered : Offered r.operation
    · cases r with
      | list path =>
        have listed := (serves.list_eq named).symm.trans failed
        obtain ⟨d, broken, rfl⟩ := Mount.onDevice_eq_error.mp listed
        exact .inl (list_error serves.state broken)
      | download path =>
        have downloaded := (serves.download_eq named).symm.trans failed
        have same : m'.device.state =
            (final (Presets.download inner (m.device.handed (presetVolume P).options))).state := by
          rw [← Mount.transfer_state active, downloaded]
          rfl
        have left := download_left inner (d := m.device.handed (presetVolume P).options) serves.state
        rcases left with kept | ⟨names, unread, bank, d₁, fetched, left⟩
        · exact .inl (same.trans kept)
        · exact .inr ⟨true, _, bank, d₁, .download named names unread, fetched, same.trans left⟩
      | rename source target =>
        have renamed := (serves.rename_eq named target).symm.trans failed
        obtain ⟨d, broken, rfl⟩ := Mount.onDevice_eq_error.mp renamed
        rcases rename_left serves.state broken with kept | ⟨names, fits, unread, bank, d₁, fetched, left⟩
        · exact .inl kept
        · exact .inr ⟨false, _, bank, d₁, .rename named names fits unread, fetched, left⟩
      | upload path data => exact absurd rfl other
      | _ => simp [Offered, Request.operation] at offered
    · rw [serves.browse_not_offered named offered] at failed
      cases failed
      exact .inl rfl

end Browse

end Eventide

end MidiStorage
