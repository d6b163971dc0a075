import MidiStorage.Eventide.Presets
import MidiStorage.Proofs.Layers
import MidiStorage.Proofs.Text.Numeral
import MidiStorage.Proofs.Transfer.Exchanges
import MidiStorage.Proofs.Transfer.Receiving

namespace MidiStorage

namespace Eventide

variable {P : Type}

/-- A store under `path` sends `message` and means the preset at `index` in the bank. -/
def Pedal.Targets (p : Pedal) (path : String) (data : Bytes) (index : Nat) (message : Bytes) : Prop :=
  ∃ id, DevicePath.id path = .ok id ∧ p.index id path = .ok index ∧
    retarget data p.deviceId id = .ok message

/-- The bank, if there is one, holds at `index` the preset that `message` carries. -/
def Pedal.Agrees (p : Pedal) (index : Nat) (message : Bytes) : Prop :=
  ∀ bank, p.bank = some bank →
    ∃ preset, (Preset.ofDump message).head? = some preset ∧ bank[index]? = some preset

theorem Pedal.refresh_agrees (p : Pedal) (index : Nat) (message : Bytes) :
    (p.refresh index message).Agrees index message := by
  intro bank kept
  cases old : p.bank with
  | none =>
    simp only [refresh, old] at kept
    cases kept
  | some before =>
    cases presets : Preset.ofDump message with
    | nil =>
      simp only [refresh, old, presets] at kept
      cases kept
    | cons preset rest =>
      simp only [refresh, old, presets] at kept
      split_ifs at kept with inside
      cases kept
      exact ⟨preset, rfl, by simp [inside]⟩

theorem Pedal.index_ok_iff (p : Pedal) (id : Nat) (path : String) (index : Nat) :
    p.index id path = .ok index ↔
      p.first ≤ id ∧ id - p.first < p.count ∧ index = id - p.first := by
  rw [Pedal.index]
  split_ifs with inside
  · simp only [Except.ok.injEq, inside, true_and]
    exact eq_comm
  · simp only [false_iff]
    rintro ⟨above, below, -⟩
    exact inside ⟨above, below⟩

namespace Presets

theorem pedal_of_state {d : Device P} {p : Pedal} (known : d.state = some (.pedal p)) :
    pedal d = .ok p d := by
  rw [pedal, Action.bind_of_ok (Action.get_apply d), Device.pedal, known, Action.ofExcept_ok]

theorem start_apply (d : Device P) :
    Device.onLink (Link.report (·.start 1)) d = .ok () { d with link := d.link.started } :=
  Device.onLink_of_ok d.link.start_apply

section Store

variable [Port P] {d : Device P} {p : Pedal} {path : String} {data : Bytes} {index : Nat}
  {message : Bytes} {watched : Bool}

theorem store_of_targets (known : d.state = some (.pedal p)) (targets : p.Targets path data index message) :
    store path data watched d =
      (do
        Device.onLink (Link.transmitAll message watched)
        Device.onLink (listen watched)
        setPedal (p.refresh index message)
        Device.onLink (Link.check watched) : Action (Device P) Unit) d := by
  obtain ⟨id, parsed, inside, encoded⟩ := targets
  rw [store, Action.bind_of_ok (pedal_of_state known), parsed,
    Action.bind_of_ok (Action.ofExcept_ok id d), inside,
    Action.bind_of_ok (Action.ofExcept_ok index d), encoded,
    Action.bind_of_ok (Action.ofExcept_ok message d)]

theorem store_of_silence (known : d.state = some (.pedal p)) (targets : p.Targets path data index message)
    {l₁ l₂ : Link P} (sent : Link.transmitAll message watched d.link = .ok () l₁)
    (silence : listen watched l₁ = .ok () l₂) :
    store path data watched d =
      Device.onLink (Link.check watched)
        ({ d with link := l₂ }.setState (.pedal (p.refresh index message))) := by
  rw [store_of_targets known targets, Action.bind_of_ok (Device.onLink_of_ok sent),
    Action.bind_of_ok (Device.onLink_of_ok silence), setPedal,
    Action.bind_of_ok (Action.modify_apply _ _)]

/-- How a store ends. The bank is not touched when the wait for an answer ends badly. -/
inductive Stored (p : Pedal) (index : Nat) (message : Bytes) (watched : Bool) (d : Device P) :
    EStateM.Result Failure (Device P) Unit → Prop
  | unsent {e : Failure} {l : Link P} (unsent : Link.transmitAll message watched d.link = .error e l) :
    Stored p index message watched d (.error e { d with link := l })
  | disturbed {l₁ l₂ : Link P} {e : Failure} (sent : Link.transmitAll message watched d.link = .ok () l₁)
    (disturbed : listen watched l₁ = .error e l₂) :
    Stored p index message watched d (.error e { d with link := l₂ })
  | stopped {l₁ l₂ : Link P} (sent : Link.transmitAll message watched d.link = .ok () l₁)
    (silence : listen watched l₁ = .ok () l₂) (stopped : Link.Stopped watched l₂) :
    Stored p index message watched d
      (.error .cancelled ({ d with link := l₂ }.setState (.pedal (p.refresh index message))))
  | done {l₁ l₂ : Link P} (sent : Link.transmitAll message watched d.link = .ok () l₁)
    (silence : listen watched l₁ = .ok () l₂) :
    Stored p index message watched d
      (.ok () ({ d with link := l₂ }.setState (.pedal (p.refresh index message))))

theorem store_stored (known : d.state = some (.pedal p)) (targets : p.Targets path data index message)
    (watched : Bool) : Stored p index message watched d (store path data watched d) := by
  cases sent : Link.transmitAll message watched d.link with
  | error e l =>
    rw [store_of_targets known targets, Action.bind_of_error (Device.onLink_of_error sent)]
    exact .unsent sent
  | ok u l₁ =>
    cases heard : listen watched l₁ with
    | error e l₂ =>
      rw [store_of_targets known targets, Action.bind_of_ok (Device.onLink_of_ok sent),
        Action.bind_of_error (Device.onLink_of_error heard)]
      exact .disturbed sent heard
    | ok u l₂ =>
      rw [store_of_silence known targets sent heard]
      by_cases stopped : Link.Stopped watched l₂
      · rw [Device.onLink_of_error (Link.check_of_stopped stopped)]
        exact .stopped sent heard stopped
      · rw [Device.onLink_of_ok (Link.check_of_not_stopped stopped)]
        exact .done sent heard

theorem store_ok {d' : Device P} (known : d.state = some (.pedal p))
    (stored : store path data watched d = .ok () d') :
    ∃ index message l, p.Targets path data index message ∧
      d' = { d with link := l }.setState (.pedal (p.refresh index message)) := by
  have unfolded := stored
  rw [store, Action.bind_of_ok (pedal_of_state known), Action.bind_eq_ok] at unfolded
  obtain ⟨id, d₁, first, unfolded⟩ := unfolded
  obtain ⟨parsed, rfl⟩ := Action.ofExcept_eq_ok.mp first
  rw [Action.bind_eq_ok] at unfolded
  obtain ⟨index, d₂, second, unfolded⟩ := unfolded
  obtain ⟨inside, rfl⟩ := Action.ofExcept_eq_ok.mp second
  rw [Action.bind_eq_ok] at unfolded
  obtain ⟨message, d₃, third, -⟩ := unfolded
  obtain ⟨encoded, -⟩ := Action.ofExcept_eq_ok.mp third
  have targets : p.Targets path data index message := ⟨id, parsed, inside, encoded⟩
  have ended := store_stored known targets watched
  rw [stored] at ended
  cases ended with
  | done sent silence => exact ⟨index, message, _, targets, rfl⟩

end Store

/-- After the message the pedal was silent, and nothing broke the wait off. -/
def Undisturbed [Port P] (message : Bytes) (watched : Bool) (l : Link P) : Prop :=
  ∃ l₁ l₂, Link.transmitAll message watched l = .ok () l₁ ∧ listen watched l₁ = .ok () l₂

theorem store_failed_agrees [Port P] {d d' : Device P} {p : Pedal} {path : String} {data : Bytes}
    {index : Nat} {message : Bytes} {watched : Bool} {e : Failure} (known : d.state = some (.pedal p))
    (targets : p.Targets path data index message)
    (failed : store path data watched d = .error e d')
    (whole : d'.link.accepted = d.link.accepted ++ message) :
    ∃ p', d'.state = some (.pedal p') ∧
      (p'.Agrees index message ↔ Undisturbed message watched d.link ∨ p.Agrees index message) := by
  have ended := store_stored known targets watched
  rw [failed] at ended
  cases ended with
  | unsent unsent =>
    have sent := Link.transmitAll_sent message watched d.link
    rw [unsent] at sent
    obtain ⟨k, inside, part⟩ := sent
    -- what a failed send got accepted is shorter than the message
    rw [part, List.append_cancel_left_eq] at whole
    have sizes := congrArg List.length whole
    rw [List.length_take] at sizes
    omega
  | disturbed sent disturbed =>
    have noise : ¬ Undisturbed message watched d.link := by
      rintro ⟨m₁, m₂, again, silence⟩
      rw [sent] at again
      cases again
      rw [disturbed] at silence
      cases silence
    -- the bank is as before, so it agrees if it did
    refine ⟨p, known, ?_⟩
    simp only [noise, false_or]
  | stopped sent silence _ =>
    have undisturbed : Undisturbed message watched d.link := ⟨_, _, sent, silence⟩
    refine ⟨p.refresh index message, rfl, ?_⟩
    simp only [p.refresh_agrees index message, undisturbed, true_or]

theorem upload_error [Port P] {d d' : Device P} {path : String} {data : Bytes} {e : Failure}
    (failed : upload path data d = .error e d') :
    store path data true { d with link := d.link.started } = .error e d' := by
  rw [upload, Action.bind_of_ok (start_apply d), Action.bind_eq_error] at failed
  rcases failed with inner | ⟨u, d₁, -, advanced⟩
  · exact inner
  · cases advanced

def bulkRead [Port P] (p : Pedal) (watched : Bool) : Action (Device P) (List Preset) := do
  let request : Transfer :=
    { raw := bulkRequest, timeout := bulkTimeout, cacheable := false, watched }
  let dump ← Device.onLink (Link.withTransfer request Exchange.perform)
  let bank := Preset.ofDump dump
  setPedal { p with bank := some bank }
  pure bank

theorem fetch_unread [Port P] {p : Pedal} (unread : p.bank = none) (watched : Bool) :
    fetch (P := P) p watched = bulkRead p watched := by
  simp only [fetch, unread, Option.isSome_none, Bool.false_eq_true, ↓reduceIte]
  rfl

theorem fetch_again [Port P] {p : Pedal} {bank : List Preset} (kept : p.bank = some bank)
    (watched : Bool) (d : Device P) :
    fetch p watched d =
      (Device.onLink (Link.pause watched d.link.timing.settlePause) >>= fun _ =>
        bulkRead p watched) d := by
  simp only [fetch, kept, Option.isSome_some, ↓reduceIte]
  rfl

theorem bulkRead_ok [Port P] {d d' : Device P} {p : Pedal} {watched : Bool} {bank : List Preset}
    (read : bulkRead p watched d = .ok bank d') :
    d'.state = some (.pedal { p with bank := some bank }) ∧
      d'.link.accepted = d.link.accepted ++ bulkRequest := by
  rw [bulkRead, Action.bind_eq_ok] at read
  obtain ⟨dump, d₁, exchanged, kept⟩ := read
  cases inner : Link.withTransfer
      { raw := bulkRequest, timeout := bulkTimeout, cacheable := false, watched }
      Exchange.perform d.link with
  | error e l =>
    rw [Device.onLink_of_error inner] at exchanged
    cases exchanged
  | ok reply l =>
    rw [Device.onLink_of_ok inner] at exchanged
    cases exchanged
    cases kept
    refine ⟨rfl, ?_⟩
    obtain ⟨l₁, sent, heard⟩ := Link.exchange_uncached_ok rfl inner
    have accepted := Exchange.sendSlices_message watched bulkRequest d.link
    rw [sent] at accepted
    exact (Exchange.collect_preserves (Link.accepted_lasting _) _).of_ok accepted heard

def entry (bank : List Preset) (index : Nat) (path : String) : Except Failure Preset :=
  match bank[index]? with
  | some preset => .ok preset
  | none => .error (.invalidPath path)

section Read

variable [Port P] {d : Device P} {p : Pedal} {path : String} {watched : Bool} {id index : Nat}

theorem read_kept (parsed : DevicePath.id path = .ok id) (inside : p.index id path = .ok index)
    {bank : List Preset} (kept : p.bank = some bank) :
    read p path watched d = Action.ofExcept (entry bank index path) d := by
  rw [read, parsed, Action.bind_of_ok (Action.ofExcept_ok id d), inside,
    Action.bind_of_ok (Action.ofExcept_ok index d)]
  simp only [kept]
  rw [Action.bind_of_ok (Action.pure_apply bank d), entry]
  cases bank[index]? <;> rfl

theorem read_unread (parsed : DevicePath.id path = .ok id) (inside : p.index id path = .ok index)
    (unread : p.bank = none) :
    read p path watched d =
      (bulkRead p watched >>= fun bank => Action.ofExcept (entry bank index path)) d := by
  rw [read, parsed, Action.bind_of_ok (Action.ofExcept_ok id d), inside,
    Action.bind_of_ok (Action.ofExcept_ok index d)]
  simp only [unread, fetch_unread unread]
  rw [Action.bind_apply, Action.bind_apply]
  cases bulkRead p watched d with
  | error e d₁ => rfl
  | ok bank d₁ =>
    simp only [entry]
    cases bank[index]? <;> rfl

end Read

theorem entry_ok {bank : List Preset} {index : Nat} {path : String} {preset : Preset}
    (found : entry bank index path = .ok preset) : bank[index]? = some preset := by
  cases slot : bank[index]? with
  | none => simp only [entry, slot, reduceCtorEq] at found
  | some other =>
    simp only [entry, slot, Except.ok.injEq] at found
    rw [found]

theorem read_source [Port P] {d d' : Device P} {p : Pedal} {path : String} {watched : Bool}
    {preset : Preset} (found : read p path watched d = .ok preset d') :
    ∃ id index bank, DevicePath.id path = .ok id ∧ p.index id path = .ok index ∧
      bank[index]? = some preset ∧
      (p.bank = some bank ∧ d' = d ∨ p.bank = none ∧ bulkRead p watched d = .ok bank d') := by
  have unfolded := found
  rw [read, Action.bind_eq_ok] at unfolded
  obtain ⟨id, d₁, first, unfolded⟩ := unfolded
  obtain ⟨parsed, rfl⟩ := Action.ofExcept_eq_ok.mp first
  rw [Action.bind_eq_ok] at unfolded
  obtain ⟨index, d₂, second, -⟩ := unfolded
  obtain ⟨inside, -⟩ := Action.ofExcept_eq_ok.mp second
  cases old : p.bank with
  | some bank =>
    rw [read_kept parsed inside old] at found
    obtain ⟨slot, rfl⟩ := Action.ofExcept_eq_ok.mp found
    exact ⟨id, index, bank, parsed, inside, entry_ok slot, Or.inl ⟨rfl, rfl⟩⟩
  | none =>
    rw [read_unread parsed inside old, Action.bind_eq_ok] at found
    obtain ⟨bank, d₁, banked, found⟩ := found
    obtain ⟨slot, rfl⟩ := Action.ofExcept_eq_ok.mp found
    exact ⟨id, index, bank, parsed, inside, entry_ok slot, Or.inr ⟨rfl, banked⟩⟩

theorem read_ok [Port P] {d d' : Device P} {p : Pedal} {path : String} {watched : Bool}
    {id index : Nat} {preset : Preset} (known : d.state = some (.pedal p))
    (parsed : DevicePath.id path = .ok id) (inside : p.index id path = .ok index)
    (found : read p path watched d = .ok preset d') :
    (∃ bank, d'.state = some (.pedal { p with bank := some bank }) ∧ bank[index]? = some preset) ∧
      d'.link.accepted = d.link.accepted ++ if p.bank.isSome then [] else bulkRequest := by
  obtain ⟨id', index', bank, parsed', inside', slot, source⟩ := read_source found
  rw [parsed] at parsed'
  cases parsed'
  rw [inside] at inside'
  cases inside'
  rcases source with ⟨kept, rfl⟩ | ⟨unread, banked⟩
  · refine ⟨⟨bank, by rw [known, ← kept], slot⟩, ?_⟩
    simp only [kept, Option.isSome_some, ↓reduceIte, List.append_nil]
  · obtain ⟨state, accepted⟩ := bulkRead_ok banked
    refine ⟨⟨bank, state, slot⟩, ?_⟩
    simp only [unread, Option.isSome_none, Bool.false_eq_true, ↓reduceIte, accepted]

def renamed (preset : Preset) (target : String) : Preset :=
  { preset with name := String.ofList ((newName target).toList.take maxNameLength) }

theorem rename_error [Port P] {d d₁ d' : Device P} {p : Pedal} {source target : String} {id : Nat}
    {preset : Preset} {e : Failure} (known : d.state = some (.pedal p))
    (parsed : DevicePath.id source = .ok id)
    (found : read p source false d = .ok preset d₁)
    (failed : rename source target d = .error e d') :
    e = .invalidPath target ∧ d' = d ∨
      store ("/" ++ toString id) (renamed preset target).toMessage false d₁ = .error e d' := by
  rw [rename, parsed, Action.bind_of_ok (Action.ofExcept_ok id d)] at failed
  cases unfit : (newName target).toList.isEmpty || (newName target).toList.any Text.isControl with
  | true =>
    left
    simp only [unfit, ↓reduceIte] at failed
    rw [Action.bind_of_error (Action.throw_apply _ d)] at failed
    cases failed
    exact ⟨rfl, rfl⟩
  | false =>
    right
    simp only [unfit, Bool.false_eq_true, ↓reduceIte] at failed
    rw [Action.bind_of_ok (pedal_of_state known), Action.bind_of_ok found] at failed
    exact failed

theorem rename_ok [Port P] {d d' : Device P} {p : Pedal} {source target : String}
    (known : d.state = some (.pedal p)) (renamed : rename source target d = .ok () d') :
    ∃ id preset d₁, DevicePath.id source = .ok id ∧
      (∀ c ∈ (newName target).toList, Text.isControl c = false) ∧
      read p source false d = .ok preset d₁ ∧
      store ("/" ++ toString id) (Presets.renamed preset target).toMessage false d₁ = .ok () d' := by
  rw [rename, Action.bind_eq_ok] at renamed
  obtain ⟨id, d₁, first, renamed⟩ := renamed
  obtain ⟨parsed, rfl⟩ := Action.ofExcept_eq_ok.mp first
  cases unfit : (newName target).toList.isEmpty || (newName target).toList.any Text.isControl with
  | true =>
    simp only [unfit, ↓reduceIte] at renamed
    rw [Action.bind_of_error (Action.throw_apply _ d)] at renamed
    cases renamed
  | false =>
    simp only [unfit, Bool.false_eq_true, ↓reduceIte] at renamed
    rw [Action.bind_of_ok (pedal_of_state known), Action.bind_eq_ok] at renamed
    obtain ⟨preset, d₁, found, stored⟩ := renamed
    rw [Bool.or_eq_false_iff, List.any_eq_false] at unfit
    exact ⟨id, preset, d₁, parsed, fun c member => by simpa using unfit.2 c member, found, stored⟩

theorem renamed_targets {p : Pedal} {source : String} {data message : Bytes} {index : Nat}
    (targets : p.Targets source data index message) (bank : Option (List Preset)) :
    ∃ id, DevicePath.id source = .ok id ∧ p.index id source = .ok index ∧
      Pedal.Targets { p with bank } ("/" ++ toString id) data index message := by
  obtain ⟨id, parsed, inside, encoded⟩ := targets
  refine ⟨id, parsed, inside, id, DevicePath.id_slot (DevicePath.id_lt parsed), ?_, encoded⟩
  rw [Pedal.index_ok_iff] at inside ⊢
  exact inside

end Presets

end Eventide

end MidiStorage
