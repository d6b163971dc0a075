import MidiStorage.Proofs.Eventide.SingleMessage
import MidiStorage.Proofs.Eventide.Visits

namespace MidiStorage

open MidiStorage.Action

variable {P α : Type}

def Unpaused (events : List LinkEvent) : Prop := ∀ t, .paused t ∉ events

def writtenIn (events : List LinkEvent) : Bytes :=
  events.flatMap fun
    | .accepted bytes => bytes
    | _ => []

theorem writtenIn_append (events more : List LinkEvent) :
    writtenIn (events ++ more) = writtenIn events ++ writtenIn more := List.flatMap_append

namespace Link

theorem accepted_eq (l : Link P) : l.accepted = writtenIn l.journal := rfl

/-- No pause was kept since the journal was `before`. -/
def Restless (before : List LinkEvent) (l : Link P) : Prop :=
  ∃ events, l.journal = before ++ events ∧ Unpaused events

theorem restless_self (l : Link P) : Restless l.journal l :=
  ⟨[], (List.append_nil _).symm, fun _ => List.not_mem_nil⟩

theorem Restless.afterTurn {before : List LinkEvent} {l : Link P} (restless : Restless before l) (port : P)
    (cancels : Bool) {event : Option LinkEvent} (busy : ∀ t, .paused t ∉ event) :
    Restless before (l.afterTurn port cancels event) := by
  obtain ⟨events, journal, unpaused⟩ := restless
  refine ⟨events ++ event.toList, ?_, ?_⟩
  · change l.journal ++ event.toList = _
    rw [journal, List.append_assoc]
  · intro t member
    rcases List.mem_append.mp member with earlier | last
    · exact unpaused t earlier
    · exact busy t (Option.mem_toList.mp last)

theorem restless_enduring [Port P] (before : List LinkEvent) : Enduring (P := P) (Restless before) where
  run _ _ restless := restless
  read := by
    intro l restless
    refine restless.afterTurn _ _ ?_
    intro t event
    split at event <;> cases event
  push _ _ restless := restless
  pop _ restless := restless
  popAll _ restless := restless
  write := by
    intro bytes l restless
    refine restless.afterTurn _ _ ?_
    intro t event
    split at event <;> cases event
  clear _ restless := restless

theorem timing_enduring [Port P] (timing : Timing) : Enduring (P := P) (·.timing = timing) where
  run _ _ same := same
  read _ same := same
  push _ _ same := same
  pop _ same := same
  popAll _ same := same
  write _ _ same := same
  clear _ same := same

theorem pause_timing [Port P] (timing : Timing) (watched : Bool) (duration : Nat) :
    Preserves (·.timing = timing) (pause (P := P) watched duration) :=
  (Preserves.get _).bind fun _ => ((timing_enduring timing).onRun _).bind fun _ =>
    Preserves.modify fun _ same => same

end Link

namespace Eventide

open Presets

namespace Presets

variable [Port P] {d : Device P} {p : Pedal} {path : String} {watched : Bool}

theorem list_restless (known : d.state = some (.pedal p)) {dir : String}
    (fresh : dir = "/" → p.bank = none) {before : List LinkEvent} (restless : d.link.Restless before) :
    (final (list dir d)).link.Restless before := by
  by_cases root : dir = "/"
  · subst root
    rw [list_root known, fetch_unread (fresh rfl)]
    have storing : Storing (P := P) (·.link.Restless before) :=
      storing_of_enduring (Link.restless_enduring before)
    exact ((storing.toReading.bulkRead p false).bind fun _ => Preserves.pure _ _) d restless
  · rw [list_elsewhere root]
    exact restless

theorem list_settles (known : d.state = some (.pedal p)) {bank : List Preset} (kept : p.bank = some bank) :
    (final (list "/" d)).link.Restless (d.link.journal ++ [.paused d.link.timing.settlePause]) := by
  obtain ⟨run, paused⟩ := Link.pause_unwatched d.link.timing.settlePause d.link
  have storing : Storing (P := P)
      (·.link.Restless (d.link.journal ++ [.paused d.link.timing.settlePause])) :=
    storing_of_enduring (Link.restless_enduring _)
  have reads := (storing.toReading.bulkRead p false).bind fun bank => Preserves.pure _ (items p bank)
  have listed : list "/" d = (bulkRead p false >>= fun bank => pure (items p bank))
      { d with link := { d.link with
        run, journal := d.link.journal ++ [.paused d.link.timing.settlePause] } } := by
    rw [list_root known, bind_apply, fetch_again kept, bind_of_ok (Device.onLink_of_ok paused), bind_apply]
  rw [listed]
  exact reads _ (Link.restless_self _)

theorem read_still {bank : List Preset} (kept : p.bank = some bank) (path : String) (watched : Bool)
    (d : Device P) : ∃ found, read p path watched d = Action.ofExcept found d := by
  by_cases names : p.Names path
  · obtain ⟨id, index, parsed, inside⟩ := names.exists_index
    exact ⟨_, read_kept parsed inside kept⟩
  · exact ⟨.error _, read_unnamed names⟩

def Unasked (before : Bytes) (l : Link P) : Prop :=
  ∃ written, l.accepted = before ++ written ∧ ¬ bulkRequest <+: written

omit [Port P] in
theorem unasked_of_accepted {before : Bytes} {l : Link P} (same : l.accepted = before) : Unasked before l :=
  ⟨[], by rw [same, List.append_nil], by decide⟩

theorem not_bulk_take {data message : Bytes} {device : UInt8} {id : Nat}
    (encoded : retarget data device id = .ok message) (k : Nat) : ¬ bulkRequest <+: message.take k := by
  intro front
  -- the fifth byte tells a dump from the request
  obtain ⟨-, -, d, body, -, -, rfl⟩ := retarget_ok_iff.mp encoded
  have whole := front.trans (List.take_prefix _ _)
  simp [bulkRequest, header] at whole

theorem store_unasked (known : d.state = some (.pedal p)) (path : String) (data : Bytes) (watched : Bool) :
    Unasked d.link.accepted (final (store path data watched d)).link := by
  by_cases names : p.Names path
  · by_cases storable : Storable data
    · obtain ⟨index, message, targets⟩ := Pedal.targets_iff.mpr ⟨names, storable⟩
      have wrote := store_wrote watched known targets
      obtain ⟨id, -, -, encoded⟩ := targets
      generalize store path data watched d = result at wrote
      cases wrote with
      | whole accepted =>
        have other := not_bulk_take encoded message.length
        rw [List.take_length] at other
        exact ⟨message, accepted, other⟩
      | part k accepted => exact ⟨_, accepted, not_bulk_take encoded k⟩
    · obtain ⟨text, refused⟩ := store_unstorable known names storable watched
      rw [refused]
      exact unasked_of_accepted rfl
  · rw [store_unnamed known names]
    exact unasked_of_accepted rfl

theorem upload_unasked (known : d.state = some (.pedal p)) (path : String) (data : Bytes) :
    Unasked d.link.accepted (final (upload path data d)).link := by
  have stored := store_unasked (d := { d with link := d.link.started }) known path data true
  rw [upload, bind_of_ok (start_apply d)]
  cases run : store path data true { d with link := d.link.started } with
  | error e d₁ =>
    rw [bind_of_error run]
    rw [run] at stored
    exact stored
  | ok u d₁ =>
    rw [bind_of_ok run]
    rw [run] at stored
    exact stored

theorem download_unasked (known : d.state = some (.pedal p)) {bank : List Preset} (kept : p.bank = some bank)
    (path : String) : Unasked d.link.accepted (final (download path d)).link := by
  obtain ⟨found, reads⟩ := read_still kept path true { d with link := d.link.started }
  rw [download_eq known]
  cases found with
  | error e =>
    rw [bind_of_error (reads.trans (ofExcept_error e _))]
    exact unasked_of_accepted rfl
  | ok preset =>
    obtain ⟨run, moved⟩ := handOut_moves preset { d with link := d.link.started }
    rw [bind_of_ok (reads.trans (ofExcept_ok preset _)), moved]
    exact unasked_of_accepted rfl

theorem rename_unasked (known : d.state = some (.pedal p)) {bank : List Preset} (kept : p.bank = some bank)
    (source target : String) : Unasked d.link.accepted (final (rename source target d)).link := by
  cases parsed : DevicePath.id source with
  | error e =>
    rw [rename_unparsed fun id parses => by rw [parsed] at parses; cases parses]
    exact unasked_of_accepted rfl
  | ok id =>
    by_cases fits : Fits target
    · obtain ⟨found, reads⟩ := read_still kept source false d
      rw [rename_fit known parsed fits]
      cases found with
      | error e =>
        rw [bind_of_error (reads.trans (ofExcept_error e _))]
        exact unasked_of_accepted rfl
      | ok preset =>
        rw [bind_of_ok (reads.trans (ofExcept_ok preset _))]
        exact store_unasked known _ _ false
    · rw [rename_unfit parsed fits]
      exact unasked_of_accepted rfl

end Presets

def Relists (m : Mount P) (r : Request α) : Prop :=
  r.operation = .list ∧ Slots.inside r.source = .ok "/" ∧ m.device.bank?.isSome

section Visits

variable [Port P] {m m' : Mount P} {p : Pedal} {r : Request α}

theorem Leaves.timing (leaves : Leaves m r m') : m'.device.link.timing = m.device.link.timing :=
  leaves.preserves (storing_of_enduring (Link.timing_enduring _))
    (fun _ _ => onLink_preserves (Link.pause_timing _ _ _)) rfl

theorem Leaves.restless (serves : Serves p m) (leaves : Leaves m r m') (other : ¬ Relists m r) :
    m'.device.link.Restless m.device.link.journal := by
  have still := Link.restless_self m.device.link
  have storing : Storing (P := P) (·.link.Restless m.device.link.journal) :=
    storing_of_enduring (Link.restless_enduring _)
  have moved {d : Device P} (run : Run) (restless : d.link.Restless m.device.link.journal) :
      (d.withRun run).link.Restless m.device.link.journal := restless
  cases leaves with
  | untouched => exact still
  | list named first last =>
    refine moved last (list_restless (d := m.device.withRun first) serves.state ?_ still)
    rintro rfl
    by_contra banked
    refine other ⟨rfl, named, ?_⟩
    rw [Device.bank_of_state serves.state]
    exact Option.isSome_iff_ne_none.mpr banked
  | download named first last => exact moved last (storing.toReading.download _ _ still)
  | upload data named first last => exact moved last (storing.upload _ data _ still)
  | rename named first last => exact moved last (storing.rename _ _ _ still)

theorem Leaves.settles (serves : Serves p m) (leaves : Leaves m r m') (relists : Relists m r) :
    m'.device.link.Restless (m.device.link.journal ++ [.paused m.device.link.timing.settlePause]) := by
  obtain ⟨listing, root, kept⟩ := relists
  rw [Device.bank_of_state serves.state, Option.isSome_iff_exists] at kept
  obtain ⟨bank, kept⟩ := kept
  cases leaves with
  | untouched run elsewhere => exact absurd root (elsewhere listing _)
  | list named first last =>
    cases named.symm.trans root
    exact list_settles (d := m.device.withRun first) serves.state kept
  | _ => cases listing

theorem Leaves.unasked (serves : Serves p m) (leaves : Leaves m r m') (kept : m.device.bank?.isSome)
    (other : ¬ Relists m r) : Unasked m.device.link.accepted m'.device.link := by
  have banked := kept
  rw [Device.bank_of_state serves.state, Option.isSome_iff_exists] at banked
  obtain ⟨bank, banked⟩ := banked
  have moved {d : Device P} (run : Run) (unasked : Unasked m.device.link.accepted d.link) :
      Unasked m.device.link.accepted (d.withRun run).link := unasked
  cases leaves with
  | untouched => exact unasked_of_accepted rfl
  | @list path inner named first last =>
    have elsewhere : inner ≠ "/" := by
      rintro rfl
      exact other ⟨rfl, named, kept⟩
    have refused := list_elsewhere (d := m.device.withRun first) elsewhere
    unfold Mount.after
    rw [refused]
    exact unasked_of_accepted rfl
  | download named first last =>
    exact moved last (download_unasked (d := m.device.withRun first) serves.state banked _)
  | upload data named first last =>
    exact moved last (upload_unasked (d := m.device.withRun first) serves.state _ data)
  | rename named first last =>
    exact moved last (rename_unasked (d := m.device.withRun first) serves.state banked _ _)

end Visits

def since (m m' : Mount P) : List LinkEvent := m'.device.link.journal.drop m.device.link.journal.length

/-- The bulk request is sent, and nothing before it. -/
def Asks (events before behind : List LinkEvent) : Prop :=
  ∃ request, events = before ++ request ++ behind ∧ writtenIn before = [] ∧
    writtenIn request = bulkRequest ∧ Unpaused request

section Asks

variable {events before behind : List LinkEvent}

theorem Asks.lead {t : Nat} (asks : Asks (.paused t :: events) before behind) :
    ∃ before', before = .paused t :: before' ∧ Asks events before' behind := by
  obtain ⟨request, parts, first, written, unpaused⟩ := asks
  cases before with
  | nil =>
    cases request with
    | nil => exact absurd written (by decide)
    | cons e request =>
      -- the pause would be one of the request
      cases parts
      exact absurd List.mem_cons_self (unpaused t)
  | cons e before =>
    cases parts
    exact ⟨before, rfl, request, rfl, first, written, unpaused⟩

theorem Asks.unpaused (asks : Asks events before behind) (unpaused : Unpaused events) :
    Unpaused before ∧ Unpaused behind := by
  obtain ⟨request, rfl, -⟩ := asks
  exact ⟨fun t member => unpaused t (by simp [member]), fun t member => unpaused t (by simp [member])⟩

theorem Asks.written (asks : Asks events before behind) : bulkRequest <+: writtenIn events := by
  obtain ⟨request, rfl, first, written, -⟩ := asks
  rw [writtenIn_append, writtenIn_append, first, written]
  exact ⟨writtenIn behind, rfl⟩

theorem asks_at_once (parts : events = before ++ .accepted bulkRequest :: behind)
    (first : writtenIn before = []) : Asks events before behind :=
  ⟨[.accepted bulkRequest], by simp [parts], first, by decide, by simp [Unpaused]⟩

end Asks

section Runs

variable [Port P] {m m' : Mount P} {p : Pedal}

/-- On the way a visit lists a bank anew. -/
def Relisted (m : Mount P) : List Visit → Prop
  | [] => False
  | v :: visits => Relists m v.request ∨ Relisted (visited m v) visits

omit [Port P] in
theorem since_of_journal {events : List LinkEvent}
    (journal : m'.device.link.journal = m.device.link.journal ++ events) : since m m' = events := by
  unfold since
  rw [journal, List.drop_left]

theorem Serves.visited_events (serves : Serves p m) (v : Visit) :
    ∃ events, Unpaused events ∧
      (Relists m v.request ∧ (visited m v).device.link.journal =
          m.device.link.journal ++ .paused m.device.link.timing.settlePause :: events ∨
        ¬ Relists m v.request ∧ (visited m v).device.link.journal = m.device.link.journal ++ events) := by
  have leaves := serves.visited_leaves v
  by_cases relists : Relists m v.request
  · obtain ⟨events, journal, unpaused⟩ := leaves.settles serves relists
    rw [List.append_assoc] at journal
    exact ⟨events, unpaused, .inl ⟨relists, journal⟩⟩
  · obtain ⟨events, journal, unpaused⟩ := leaves.restless serves relists
    exact ⟨events, unpaused, .inr ⟨relists, journal⟩⟩

theorem Serves.timing_on_tour (serves : Serves p m) (visits : List Visit) :
    (toured m visits).device.link.timing = m.device.link.timing :=
  (serves.on_tour_of (J := fun m' => m'.device.link.timing = m.device.link.timing)
    (fun v _ _ _ served same => (served.visited_leaves v).timing.trans same) rfl).1

theorem Serves.settles_on_tour (serves : Serves p m) (visits : List Visit) :
    ∃ events, (toured m visits).device.link.journal = m.device.link.journal ++ events ∧
      (.paused m.device.link.timing.settlePause ∈ events ↔ Relisted m visits) := by
  -- of the first visit the events are known, and of the others by induction
  induction visits generalizing p m with
  | nil => exact ⟨[], (List.append_nil _).symm, by simp [Relisted]⟩
  | cons v visits ih =>
    have leaves := serves.visited_leaves v
    obtain ⟨p', served⟩ := leaves.serves serves
    obtain ⟨later, rest, settles⟩ := ih served
    rw [leaves.timing] at settles
    obtain ⟨events, unpaused, ⟨relists, journal⟩ | ⟨other, journal⟩⟩ := serves.visited_events v
    · rw [journal, List.append_assoc] at rest
      exact ⟨_, rest, by simp [Relisted, relists]⟩
    · rw [journal, List.append_assoc] at rest
      exact ⟨_, rest, by simp [Relisted, other, unpaused _, settles]⟩

/-- A visit that asks for the bank keeps its pause before that, and while a bank is kept only a
listing asks. -/
theorem Serves.asked (serves : Serves p m) {v : Visit} {before behind : List LinkEvent}
    (asks : Asks (since m (visited m v)) before behind) :
    .paused m.device.link.timing.settlePause ∉ behind ∧
      (.paused m.device.link.timing.settlePause ∈ before ↔ m.device.bank?.isSome) := by
  obtain ⟨events, unpaused, ⟨relists, journal⟩ | ⟨other, journal⟩⟩ := serves.visited_events v
  · rw [since_of_journal journal] at asks
    obtain ⟨before, rfl, later⟩ := asks.lead
    exact ⟨(later.unpaused unpaused).2 _, by simp [relists.2.2]⟩
  · have whole := since_of_journal journal
    have unread : ¬ m.device.bank?.isSome := by
      intro kept
      obtain ⟨written, accepted, apart⟩ := (serves.visited_leaves v).unasked serves kept other
      rw [Link.accepted_eq, journal, writtenIn_append, Link.accepted_eq, List.append_cancel_left_eq] at accepted
      rw [whole] at asks
      exact apart (accepted ▸ asks.written)
    rw [whole] at asks
    obtain ⟨notBefore, notBehind⟩ := asks.unpaused unpaused
    exact ⟨notBehind _, by simp [notBefore _, unread]⟩

end Runs

/-- Two bulk requests have a pause between them exactly if a bank is kept when the second is made,
or was listed anew in between. So the pause is there if the first one left a bank and no preset was
stored since, but not after a bulk read that failed or a store that dropped the bank. -/
theorem settled_between_iff [Port P] {p : Pedal} {m m₁ m₂ m₃ : Mount P} (serves : Serves p m)
    {first second : Visit} {mid : List Visit} (begun : visited m first = m₁) (passed : toured m₁ mid = m₂)
    (ended : visited m₂ second = m₃) {before₁ behind₁ before₂ behind₂ : List LinkEvent}
    (asked : Asks (since m m₁) before₁ behind₁) (again : Asks (since m₂ m₃) before₂ behind₂) :
    let settled := .paused m.device.link.timing.settlePause ∈ behind₁ ++ since m₁ m₂ ++ before₂
    (settled ↔ m₂.device.bank?.isSome ∨ Relisted m₁ mid) ∧
      (m₁.device.bank?.isSome →
        (∀ v ∈ mid, v.request.operation ≠ .upload ∧ v.request.operation ≠ .rename) → settled) := by
  intro settled
  subst begun passed ended
  have leaves := serves.visited_leaves first
  obtain ⟨p₁, serves₁⟩ := leaves.serves serves
  obtain ⟨p₂, serves₂⟩ := serves₁.on_tour mid
  obtain ⟨events, journal, settles⟩ := serves₁.settles_on_tour mid
  have behind := (serves.asked asked).1
  have before := (serves₂.asked again).2
  rw [serves₁.timing_on_tour, leaves.timing] at before
  rw [leaves.timing] at settles
  have whole : settled ↔
      (toured (visited m first) mid).device.bank?.isSome ∨ Relisted (visited m first) mid := by
    unfold settled
    rw [since_of_journal journal, List.mem_append, List.mem_append, before, settles, or_iff_right behind]
    exact or_comm
  refine ⟨whole, ?_⟩
  intro kept unsent
  exact whole.mpr (.inl (serves₁.bank_on_tour unsent kept))

def inattentive : Mount VirtualPort where
  device :=
    { link := Link.ofPort "virtual:0"
        { name := "virtual"
          respond := fun earlier message =>
            if message = bulkRequest ∧ earlier ≠ [] then { parts := [leadDump] } else {} }
        { Timing.standard with pollInterval := bulkTimeout }
      state := some (.pedal threePresets) }
  volumes := [presetVolume VirtualPort]

def listing : Visit := { run := {}, request := .list "/preset" }

def dropping : Visit where
  run := {}
  request := .upload "/preset/0" (slotStart 0 0 ++ [0x20, 0x30, 0x0D, 0x0A, 0x00, 0xF7])

/-- Twice a bulk request follows another without a pause: the first had failed, and after the second
the bank was dropped. The fourth waits. -/
theorem inattentive_unsettled :
    let settle := LinkEvent.paused 1000
    let m₁ := visited inattentive listing
    let m₂ := visited m₁ listing
    let m₃ := visited m₂ dropping
    let m₄ := visited m₃ listing
    let m₅ := visited m₄ listing
    (since inattentive m₁ = [.accepted bulkRequest] ∧
      since m₁ m₂ = [.accepted bulkRequest, .delivered leadDump] ∧
      since m₃ m₄ = [.accepted bulkRequest, .delivered leadDump] ∧
      since m₄ m₅ = [settle, .accepted bulkRequest, .delivered leadDump]) ∧
    settle ∉ since m₁ m₁ ∧ settle ∉ .delivered leadDump :: since m₂ m₃ ∧
      settle ∈ .delivered leadDump :: since m₄ m₄ ++ [settle] := by
  intro settle m₁ m₂ m₃ m₄ m₅
  have events : since inattentive m₁ = [.accepted bulkRequest] ∧
      since m₁ m₂ = [.accepted bulkRequest, .delivered leadDump] ∧
      since m₃ m₄ = [.accepted bulkRequest, .delivered leadDump] ∧
      since m₄ m₅ = [settle, .accepted bulkRequest, .delivered leadDump] := by decide +kernel
  obtain ⟨events₁, events₂, events₄, events₅⟩ := events
  have banks : ¬ m₁.device.bank?.isSome ∧ ¬ m₃.device.bank?.isSome ∧ m₄.device.bank?.isSome := by
    decide +kernel
  have pauses : m₁.device.link.timing.settlePause = 1000 ∧ m₃.device.link.timing.settlePause = 1000 := by
    decide +kernel
  obtain ⟨unread, lost, kept⟩ := banks
  have came₁ : visited inattentive listing = m₁ := rfl
  have came₂ : visited m₁ listing = m₂ := rfl
  have came₃ : visited m₂ dropping = m₃ := rfl
  have came₄ : visited m₃ listing = m₄ := rfl
  have came₅ : visited m₄ listing = m₅ := rfl
  refine ⟨⟨events₁, events₂, events₄, events₅⟩, ?_⟩
  clear_value m₅ m₄ m₃ m₂ m₁
  have serves : Serves threePresets inattentive := ⟨rfl, rfl⟩
  obtain ⟨p₁, serves₁⟩ := (serves.visited_leaves listing).serves serves
  rw [came₁] at serves₁
  obtain ⟨p₂, serves₂⟩ := (serves₁.visited_leaves listing).serves serves₁
  rw [came₂] at serves₂
  obtain ⟨p₃, serves₃⟩ := (serves₂.visited_leaves dropping).serves serves₂
  rw [came₃] at serves₃
  have asked₁ : Asks (since inattentive m₁) [] [] := asks_at_once events₁ rfl
  have asked₂ : Asks (since m₁ m₂) [] [.delivered leadDump] := asks_at_once events₂ rfl
  have asked₄ : Asks (since m₃ m₄) [] [.delivered leadDump] := asks_at_once events₄ rfl
  have asked₅ : Asks (since m₄ m₅) [settle] [.delivered leadDump] := asks_at_once events₅ rfl
  have nothing (m : Mount VirtualPort) : toured m [] = m := rfl
  have unlisted : ¬ Relisted m₂ [dropping] := by simp [Relisted, Relists, dropping, Request.operation]
  have failed := (settled_between_iff serves came₁ (nothing m₁) came₂ asked₁ asked₂).1
  have passed : toured m₂ [dropping] = m₃ := came₃
  have dropped := (settled_between_iff serves₁ came₂ passed came₄ asked₂ asked₄).1
  have relisted := (settled_between_iff serves₃ came₄ (nothing m₄) came₅ asked₄ asked₅).1
  rw [pauses.1] at dropped
  rw [pauses.2] at relisted
  refine ⟨?_, ?_, relisted.mpr (.inl kept)⟩
  · intro settled
    rw [List.nil_append, List.append_nil] at failed
    rcases failed.mp settled with known | nowhere
    · exact unread known
    · exact nowhere
  · intro settled
    rw [List.append_nil, List.singleton_append] at dropped
    rcases dropped.mp settled with known | listed
    · exact lost known
    · exact unlisted listed

end Eventide

end MidiStorage
