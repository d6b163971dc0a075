import MidiStorage.Proofs.Eventide.Slots
import MidiStorage.Proofs.Eventide.Storing
import MidiStorage.Proofs.Transfer.Conversation

namespace MidiStorage.Eventide

open MidiStorage.Action (answer final)

/-- The pedal began with the presets of `initial`, holds those of `s` now, and is known as `p`. -/
structure Mirrors (initial s : Slots) (p : Pedal) (d : Device VirtualPort) : Prop where
  known : d.state = some (.pedal p)
  first : p.first = s.first
  count : p.count = s.count
  number : p.deviceId < 0x80
  bank : ∀ bank, p.bank = some bank → bank = s.presets
  plain : s.Plain
  link : ∃ requests, d.link.Awaits (initial.respond p.deviceId) requests [] ∧
    requests.foldl Slots.store initial = s

namespace Mirrors

variable {initial s : Slots} {p : Pedal} {d : Device VirtualPort}

theorem index_ok (mirrors : Mirrors initial s p d) {id : Nat} (inside : id ∈ s.ids) (path : String) :
    p.index id path = .ok (id - s.first) := by
  obtain ⟨low, high⟩ := Slots.mem_ids.mp inside
  have first := mirrors.first
  have count := mirrors.count
  rw [Pedal.index_ok_iff]
  omega

theorem index_error (mirrors : Mirrors initial s p d) {id : Nat} (outside : id ∉ s.ids)
    (path : String) : p.index id path = .error (.invalidPath path) := by
  have first := mirrors.first
  have count := mirrors.count
  rw [Slots.mem_ids] at outside
  have apart : ¬ (p.first ≤ id ∧ id - p.first < p.count) := by omega
  unfold Pedal.index
  rw [if_neg apart]

theorem misplaced (mirrors : Mirrors initial s p d) {path : String} {e : Failure}
    (failed : s.locate path = .error e) {α : Type} (rest : Nat → Nat → Action (Device VirtualPort) α) :
    (do
      let id ← Action.ofExcept (DevicePath.id path)
      let index ← Action.ofExcept (p.index id path)
      rest id index : Action (Device VirtualPort) α) d = .error e d := by
  rcases s.locate_cases path with ⟨e', parsed, same⟩ | ⟨id, parsed, outside, same⟩ | ⟨id, -, -, same⟩
  · rw [failed] at same
    cases same
    rw [parsed, Action.bind_of_error (Action.ofExcept_error e d)]
  · rw [failed] at same
    cases same
    rw [parsed, Action.bind_of_ok (Action.ofExcept_ok id d), mirrors.index_error outside,
      Action.bind_of_error (Action.ofExcept_error _ d)]
  · rw [failed] at same
    cases same

theorem withLink (mirrors : Mirrors initial s p d) {l : Link VirtualPort}
    (same : ∀ requests, d.link.Awaits (initial.respond p.deviceId) requests [] →
      l.Awaits (initial.respond p.deviceId) requests []) :
    Mirrors initial s p { d with link := l } := by
  obtain ⟨requests, awaits, memory⟩ := mirrors.link
  exact { mirrors with link := ⟨requests, same requests awaits, memory⟩ }

theorem check (mirrors : Mirrors initial s p d) (watched : Bool) :
    Device.onLink (Link.check watched) d = .ok () d := by
  obtain ⟨requests, awaits, -⟩ := mirrors.link
  exact Device.onLink_of_ok (awaits.check watched)

theorem report (mirrors : Mirrors initial s p d) {change : Job Float → Job Float}
    (active : ∀ job, (change job).active = job.active) :
    ∃ d', Device.onLink (Link.report change) d = .ok () d' ∧ Mirrors initial s p d' := by
  refine ⟨_, Device.onLink_of_ok (Link.report_apply change d.link), mirrors.withLink ?_⟩
  intro requests awaits
  exact awaits.withRun (awaits.serene.report active)

theorem items_eq (mirrors : Mirrors initial s p d) : Presets.items p s.presets = s.listing := by
  have first := mirrors.first
  have count := mirrors.count
  have whole : s.presets.take p.count = s.presets := by
    apply List.take_of_length_le
    rw [s.length_presets]
    omega
  unfold Presets.items Slots.listing
  rw [whole]
  apply List.ext_getElem?
  intro i
  rw [List.getElem?_mapIdx, Slots.getElem?_presets, List.getElem?_map]
  by_cases small : i < s.count
  · unfold Slots.ids
    rw [if_pos small, List.getElem?_range' small, Nat.one_mul, first]
    rfl
  · have past : s.ids[i]? = none := by
      unfold Slots.ids
      rw [List.getElem?_eq_none_iff, List.length_range']
      omega
    rw [if_neg small, past]
    rfl

theorem bulkRequest_isMessage : bulkRequest.IsMessage :=
  ⟨[0xF0, 0x1C, 0x70, 0x00, 0x48], ⟨[0x1C, 0x70, 0x00, 0x48], rfl, List.all_eq_true.mp (by decide)⟩, rfl⟩

theorem bulkRead (mirrors : Mirrors initial s p d) (watched : Bool) :
    ∃ d', Presets.bulkRead p watched d = .ok s.presets d' ∧
      Mirrors initial s { p with bank := some s.presets } d' := by
  obtain ⟨requests, awaits, memory⟩ := mirrors.link
  have plain : ∀ q ∈ s.presets, q.Plain := mirrors.plain.ofPresets
  have answered : initial.respond p.deviceId requests bulkRequest =
      { parts := [dumpOf p.deviceId s.presets] } := by
    rw [Slots.respond_bulkRequest, memory]
  have short : bulkRequest.length ≤ Transfer.sliceSize := by decide
  obtain ⟨l, exchanged, awaits'⟩ := awaits.performUncached
    (t := { raw := bulkRequest, timeout := Presets.bulkTimeout, cacheable := false, watched })
    rfl rfl bulkRequest_isMessage short answered
    (isMessage_dumpOf mirrors.number fun q inside => (plain q inside).ascii_text)
  have read : Preset.ofDump (dumpOf p.deviceId s.presets) = s.presets :=
    ofDump_dumpOf fun q inside => (plain q inside).legible
  refine ⟨{ d with link := l, state := some (.pedal { p with bank := some s.presets }) }, ?_, ?_⟩
  · unfold Presets.bulkRead
    rw [Action.bind_of_ok (Device.onLink_of_ok exchanged), read]
    rfl
  -- the request is one more message to the pedal, which stores nothing for it
  · refine { mirrors with known := rfl, bank := ?_, link := ⟨_, awaits', ?_⟩ }
    · intro bank same
      cases same
      rfl
    · rw [List.foldl_append, memory]
      exact s.store_bulkRequest

theorem fetch (mirrors : Mirrors initial s p d) (watched : Bool) :
    ∃ p' d', Presets.fetch p watched d = .ok s.presets d' ∧ Mirrors initial s p' d' := by
  cases kept : p.bank with
  | none =>
    obtain ⟨d', read, mirrors'⟩ := mirrors.bulkRead watched
    rw [Presets.fetch_unread kept]
    exact ⟨_, d', read, mirrors'⟩
  | some bank =>
    obtain ⟨requests, awaits, memory⟩ := mirrors.link
    obtain ⟨l, paused, awaits'⟩ := awaits.pause watched d.link.timing.settlePause
    have rested : Mirrors initial s p { d with link := l } :=
      { mirrors with link := ⟨requests, awaits', memory⟩ }
    obtain ⟨d', read, mirrors'⟩ := rested.bulkRead watched
    rw [Presets.fetch_again kept, Action.bind_of_ok (Device.onLink_of_ok paused)]
    exact ⟨_, d', read, mirrors'⟩

theorem read (mirrors : Mirrors initial s p d) {path : String} {id : Nat}
    (parsed : DevicePath.id path = .ok id) (inside : id ∈ s.ids) (watched : Bool) :
    ∃ p' d', Presets.read p path watched d = .ok (s.preset id) d' ∧ Mirrors initial s p' d' := by
  have index := mirrors.index_ok inside path
  have entry : Presets.entry s.presets (id - s.first) path = .ok (s.preset id) := by
    unfold Presets.entry
    rw [Slots.getElem?_slot inside]
  cases kept : p.bank with
  | some bank =>
    have same := mirrors.bank bank kept
    subst same
    rw [Presets.read_kept parsed index kept, entry]
    exact ⟨p, d, rfl, mirrors⟩
  | none =>
    obtain ⟨d', read, mirrors'⟩ := mirrors.bulkRead watched
    rw [Presets.read_unread parsed index kept, Action.bind_of_ok read, entry]
    exact ⟨_, d', rfl, mirrors'⟩

theorem read_misplaced (mirrors : Mirrors initial s p d) {path : String} {e : Failure}
    (failed : s.locate path = .error e) (watched : Bool) :
    Presets.read p path watched d = .error e d :=
  mirrors.misplaced failed _

theorem listen {l : Link VirtualPort} {respond : List Bytes → Bytes → Reply} {requests : List Bytes}
    (awaits : l.Awaits respond requests []) (watched : Bool) :
    ∃ l', Presets.listen watched l = .ok () l' ∧ l'.Awaits respond requests [] := by
  obtain ⟨l', silence, awaits'⟩ := Exchange.collect_silence awaits
    (t := { raw := [], timeout := l.timing.silenceWindow, watched, phase := .receiving }) rfl
  have timedOut := Link.withTransfer_of_error (Exchange.receive_of_error
    (t := { raw := [], timeout := l.timing.silenceWindow, watched }) silence)
  refine ⟨l', ?_, awaits'⟩
  unfold Presets.listen
  rw [Action.bind_of_ok (Action.get_apply l), Action.bind_of_ok (Action.outcome_of_error timedOut)]
  rfl

theorem refresh (mirrors : Mirrors initial s p d) {id : Nat} (inside : id ∈ s.ids) {file : Preset}
    (plain : file.Plain) :
    ∃ bank, p.refresh (id - s.first) (dumpOf p.deviceId [file.inSlot id]) = { p with bank } ∧
      ∀ presets, bank = some presets → presets = (s.put id (file.inSlot id)).presets := by
  cases kept : p.bank with
  | none =>
    refine ⟨none, ?_, fun presets same => by cases same⟩
    unfold Pedal.refresh
    rw [kept]
    exact congrArg (fun bank => { p with bank }) kept
  | some bank =>
    have same := mirrors.bank bank kept
    subst same
    have offset : id - s.first < s.presets.length := by
      obtain ⟨low, high⟩ := Slots.mem_ids.mp inside
      rw [s.length_presets]
      omega
    refine ⟨some (s.presets.set (id - s.first) (file.inSlot id)), ?_, ?_⟩
    · exact p.refresh_dumpOf p.deviceId kept offset (plain.inSlot id).legible
    · intro presets same
      cases same
      exact (Slots.presets_put inside _).symm

theorem store (mirrors : Mirrors initial s p d) {path : String} {id : Nat}
    (parsed : DevicePath.id path = .ok id) (inside : id ∈ s.ids) {file : Preset} (plain : file.Plain)
    {sender : UInt8} (short : (dumpOf sender [file]).length ≤ maxLength) (watched : Bool) :
    ∃ p' d', Presets.store path (dumpOf sender [file]) watched d = .ok () d' ∧
      Mirrors initial (s.put id (file.inSlot id)) p' d' := by
  obtain ⟨requests, awaits, memory⟩ := mirrors.link
  have targets : p.Targets path (dumpOf sender [file]) (id - s.first)
      (dumpOf p.deviceId [file.inSlot id]) :=
    ⟨id, parsed, mirrors.index_ok inside path, retarget_dumpOf plain.blank short⟩
  have message : (dumpOf p.deviceId [file.inSlot id]).IsMessage :=
    isMessage_single mirrors.number (plain.inSlot id).ascii_text
  have size : (dumpOf p.deviceId [file.inSlot id]).length ≤ Transfer.sliceSize := by
    -- the file fits into half a slice, and a tag adds at most five bytes
    have grown := length_inSlot file id
    rw [length_dumpOf] at short
    rw [length_dumpOf]
    unfold maxLength at short
    unfold Transfer.sliceSize
    omega
  obtain ⟨l₁, sent, awaits₁⟩ := awaits.transmitAll message size (Slots.respond_dumpOf ..) watched
  obtain ⟨l₂, silence, awaits₂⟩ := listen awaits₁ watched
  obtain ⟨bank, refreshed, inLine⟩ := mirrors.refresh inside plain
  have stored : Mirrors initial (s.put id (file.inSlot id)) { p with bank }
      ({ d with link := l₂ }.setState (.pedal { p with bank })) := by
    refine ⟨rfl, mirrors.first, mirrors.count, mirrors.number, inLine,
      mirrors.plain.put id (plain.inSlot id), _, awaits₂, ?_⟩
    rw [List.foldl_append, memory]
    exact Slots.store_inSlot mirrors.plain.count inside p.deviceId plain
  refine ⟨_, _, ?_, stored⟩
  rw [Presets.store_of_silence mirrors.known targets sent silence, refreshed]
  exact stored.check watched

theorem store_misplaced (mirrors : Mirrors initial s p d) {path : String} {e : Failure}
    (failed : s.locate path = .error e) (data : Bytes) (watched : Bool) :
    Presets.store path data watched d = .error e d := by
  unfold Presets.store
  rw [Action.bind_of_ok (Presets.pedal_of_state mirrors.known)]
  exact mirrors.misplaced failed _

theorem store_long (mirrors : Mirrors initial s p d) {path : String} {id : Nat}
    (parsed : DevicePath.id path = .ok id) (inside : id ∈ s.ids) {data : Bytes}
    (long : maxLength < data.length) (watched : Bool) :
    Presets.store path data watched d =
      .error (.badMessage ("bad preset length " ++ toString data.length)) d := by
  unfold Presets.store
  rw [Action.bind_of_ok (Presets.pedal_of_state mirrors.known), parsed,
    Action.bind_of_ok (Action.ofExcept_ok id d), mirrors.index_ok inside,
    Action.bind_of_ok (Action.ofExcept_ok _ d), retarget_long long,
    Action.bind_of_error (Action.ofExcept_error _ d)]

theorem list (mirrors : Mirrors initial s p d) (dir : String) :
    answer (Presets.list dir d) = s.list dir ∧
      ∃ p', Mirrors initial s p' (final (Presets.list dir d)) := by
  unfold Presets.list Slots.list
  by_cases top : dir = "/"
  · obtain ⟨p', d', fetched, mirrors'⟩ := mirrors.fetch false
    simp only [top, ne_eq, not_true_eq_false, ↓reduceIte]
    rw [Action.bind_of_ok (Presets.pedal_of_state mirrors.known),
      Action.bind_of_ok fetched, mirrors.items_eq]
    exact ⟨rfl, p', mirrors'⟩
  · simp only [top, ne_eq, not_false_eq_true, ↓reduceIte]
    rw [Action.bind_of_error (Action.throw_apply _ d)]
    exact ⟨rfl, p, mirrors⟩

theorem started (mirrors : Mirrors initial s p d) :
    ∃ d', Device.onLink (Link.report (·.start 1)) d = .ok () d' ∧ Mirrors initial s p d' :=
  mirrors.report fun job => Job.start_active job 1

theorem advanced (mirrors : Mirrors initial s p d) :
    ∃ d', Device.onLink (Link.report (·.advance 1.0)) d = .ok () d' ∧ Mirrors initial s p d' :=
  mirrors.report fun job => Job.advance_active job 1.0

theorem download (mirrors : Mirrors initial s p d) (path : String) :
    answer (Presets.download path d) = s.download path ∧
      ∃ p', Mirrors initial s p' (final (Presets.download path d)) := by
  obtain ⟨d₁, begun, mirrors₁⟩ := mirrors.started
  unfold Presets.download Slots.download
  rw [Action.bind_of_ok begun, Action.bind_of_ok (Presets.pedal_of_state mirrors₁.known)]
  cases located : s.locate path with
  | error e =>
    rw [Action.bind_of_error (mirrors₁.read_misplaced located true)]
    exact ⟨rfl, p, mirrors₁⟩
  | ok id =>
    obtain ⟨parsed, inside⟩ := Slots.locate_ok located
    obtain ⟨p₂, d₂, found, mirrors₂⟩ := mirrors₁.read parsed inside true
    obtain ⟨d₃, ended, mirrors₃⟩ := mirrors₂.advanced
    rw [Action.bind_of_ok found, Action.bind_of_ok (mirrors₂.check true), Action.bind_of_ok ended,
      toMessage_eq]
    exact ⟨rfl, p₂, mirrors₃⟩

theorem save (mirrors : Mirrors initial s p d) {path : String} {id : Nat}
    (parsed : DevicePath.id path = .ok id) (inside : id ∈ s.ids) {file : Preset} (plain : file.Plain)
    (sender : UInt8) (watched : Bool) :
    answer (Presets.store path (dumpOf sender [file]) watched d) = (s.save id file).1 ∧
      ∃ p', Mirrors initial (s.save id file).2 p'
        (final (Presets.store path (dumpOf sender [file]) watched d)) := by
  have size : (dumpOf 0 [file]).length = (dumpOf sender [file]).length := by
    rw [length_dumpOf, length_dumpOf]
  unfold Slots.save
  rw [size]
  by_cases long : maxLength < (dumpOf sender [file]).length
  · rw [mirrors.store_long parsed inside long, if_pos long]
    exact ⟨rfl, p, mirrors⟩
  · obtain ⟨p', d', stored, mirrors'⟩ :=
      mirrors.store parsed inside plain (Nat.le_of_not_lt long) watched
    rw [stored, if_neg long]
    exact ⟨rfl, p', mirrors'⟩

theorem upload (mirrors : Mirrors initial s p d) (path : String) (sender : UInt8) {file : Preset}
    (plain : file.Plain) :
    answer (Presets.upload path (dumpOf sender [file]) d) = (s.upload path file).1 ∧
      ∃ p', Mirrors initial (s.upload path file).2 p'
        (final (Presets.upload path (dumpOf sender [file]) d)) := by
  obtain ⟨d₁, begun, mirrors₁⟩ := mirrors.started
  unfold Presets.upload Slots.upload
  rw [Action.bind_of_ok begun]
  cases located : s.locate path with
  | error e =>
    rw [Action.bind_of_error (mirrors₁.store_misplaced located _ true)]
    exact ⟨rfl, p, mirrors₁⟩
  | ok id =>
    obtain ⟨parsed, inside⟩ := Slots.locate_ok located
    obtain ⟨given, p₂, mirrors₂⟩ := mirrors₁.save parsed inside plain sender true
    cases stored : Presets.store path (dumpOf sender [file]) true d₁ with
    | error e d₂ =>
      rw [stored] at given mirrors₂
      rw [Action.bind_of_error stored]
      exact ⟨given, p₂, mirrors₂⟩
    | ok u d₂ =>
      rw [stored] at given mirrors₂
      change Mirrors initial _ p₂ d₂ at mirrors₂
      obtain ⟨d₃, ended, mirrors₃⟩ := mirrors₂.advanced
      rw [Action.bind_of_ok stored, ended]
      exact ⟨given, p₂, mirrors₃⟩

theorem rename (mirrors : Mirrors initial s p d) (path : String) {name : String} (bare : BareName name) :
    answer (Presets.rename path name d) = (s.rename path name).1 ∧
      ∃ p', Mirrors initial (s.rename path name).2 p' (final (Presets.rename path name d)) := by
  have fits : ((Presets.newName name).toList.isEmpty || (Presets.newName name).toList.any Text.isControl) =
      false := by
    rw [bare.newName_eq]
    exact bare.fits
  unfold Presets.rename Slots.rename
  rcases s.locate_cases path with ⟨e, parsed, located⟩ | ⟨id, parsed, outside, located⟩ |
    ⟨id, parsed, inside, located⟩
  · rw [located, parsed, Action.bind_of_error (Action.ofExcept_error e d)]
    exact ⟨rfl, p, mirrors⟩
  · rw [located, parsed, Action.bind_of_ok (Action.ofExcept_ok id d)]
    simp only [fits, Bool.false_eq_true, ↓reduceIte]
    rw [Action.bind_of_ok (Presets.pedal_of_state mirrors.known),
      Action.bind_of_error (mirrors.read_misplaced located false)]
    exact ⟨rfl, p, mirrors⟩
  · obtain ⟨p₁, d₁, found, mirrors₁⟩ := mirrors.read parsed inside false
    have back := Slots.locate_slot mirrors.plain.bound inside
    have plain := bare.plain_named (mirrors.plain.presets id inside)
    rw [located, parsed, Action.bind_of_ok (Action.ofExcept_ok id d)]
    simp only [fits, Bool.false_eq_true, ↓reduceIte]
    rw [Action.bind_of_ok (Presets.pedal_of_state mirrors.known),
      Action.bind_of_ok found, bare.newName_eq, toMessage_eq]
    exact mirrors₁.save back inside plain 0 false

end Mirrors

end MidiStorage.Eventide
