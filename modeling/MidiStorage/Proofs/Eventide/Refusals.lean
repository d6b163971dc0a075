import MidiStorage.Proofs.Eventide.BulkReads
import MidiStorage.Proofs.Eventide.StaleBank

namespace MidiStorage

open MidiStorage.Action

variable {P α : Type}

namespace Mount

theorem transfer_error {options : VolumeOptions} {method : Action (Device P) α} {m m' : Mount P} {e : Failure}
    (active : ¬ m.device.Cancelled) (failed : transfer options method m = .error e m') :
    (∃ d, method (m.device.handed options) = .error e d) ∨ e = .cancelled := by
  cases run : method (m.device.handed options) with
  | error e₁ d =>
    rw [transfer_of_error active run] at failed
    cases failed
    exact .inl ⟨d, rfl⟩
  | ok x d =>
    by_cases cancelled : d.Cancelled
    · rw [transfer_of_interrupted active run cancelled] at failed
      cases failed
      exact .inr rfl
    · rw [transfer_of_ok active run cancelled] at failed
      cases failed

end Mount

namespace Eventide

open Presets

section Upload

variable [Port P] {p : Pedal} {m : Mount P} (serves : Serves p m) (active : ¬ m.device.Cancelled)
  {path inner : String} (named : Slots.inside path = .ok inner) {data : Bytes}

include serves active named

theorem upload_of_store_error {e : Failure} {d : Device P}
    (failed : store inner data true (begun m.device) = .error e d) :
    Mount.upload path data m = .error e { m with device := d } := by
  have method : upload inner data (m.device.handed (presetVolume P).options) = .error e d := by
    rw [upload, bind_of_ok (start_apply _)]
    exact bind_of_error failed
  rw [serves.upload_eq named]
  exact Mount.transfer_of_error active method

theorem upload_unnamed (unnamed : ¬ p.Names inner) :
    Mount.upload path data m = .error (.invalidPath inner) { m with device := begun m.device } :=
  upload_of_store_error serves active named (store_unnamed (d := begun m.device) serves.state unnamed)

theorem upload_unstorable (names : p.Names inner) (unstorable : ¬ Storable data) :
    ∃ text, Mount.upload path data m = .error (.badMessage text) { m with device := begun m.device } := by
  obtain ⟨text, refused⟩ :=
    store_unstorable (d := begun m.device) serves.state names unstorable true
  exact ⟨text, upload_of_store_error serves active named refused⟩

theorem upload_fault (names : p.Names inner) (storable : Storable data) {e : Failure} {m' : Mount P}
    (failed : Mount.upload path data m = .error e m') : Fault true none e := by
  obtain ⟨index, message, targets⟩ := Pedal.targets_iff.mpr ⟨names, storable⟩
  rw [serves.upload_eq named] at failed
  rcases Mount.transfer_error active failed with ⟨d, broken⟩ | rfl
  · exact store_fault (d := begun m.device) serves.state targets (upload_error broken)
  · exact .cancelled rfl

theorem upload_error_cases {e : Failure} (failed : answer (Mount.upload path data m) = .error e) :
    ¬ p.Names inner ∧ e = .invalidPath inner ∨
      p.Names inner ∧ ¬ Storable data ∧ (∃ text, e = .badMessage text) ∨
      p.Names inner ∧ Storable data ∧ Fault true none e := by
  by_cases names : p.Names inner
  · by_cases storable : Storable data
    · cases run : Mount.upload path data m with
      | ok u m' =>
        rw [run] at failed
        cases failed
      | error e₁ m' =>
        rw [run] at failed
        cases failed
        exact .inr (.inr ⟨names, storable, upload_fault serves active named names storable run⟩)
    · obtain ⟨text, refused⟩ := upload_unstorable serves active named names storable
      rw [refused] at failed
      cases failed
      exact .inr (.inl ⟨names, storable, text, rfl⟩)
  · rw [upload_unnamed serves active named names] at failed
    cases failed
    exact .inl ⟨names, rfl⟩

end Upload

theorem BulkReads.state [Port P] {m : Mount P} {p : Pedal} {r : Request α} {watched : Bool} {d : Device P}
    (reads : BulkReads m p r watched d) : d.state = m.device.state := by
  cases reads <;> rfl

/-- An upload is refused for its path exactly if this names no slot of the pedal, and otherwise for
its data exactly if no slot would take them; all that has happened then is that its job began.
Whenever the bulk read of a request fails, the request fails with it and the bank is what it was; it
changes in a request that fails only if the bulk read was answered. -/
theorem refused_unchanged [Port P] {p : Pedal} {m : Mount P} (serves : Serves p m)
    (active : ¬ m.device.Cancelled) :
    (∀ path inner data, Slots.inside path = .ok inner →
      ((∃ text, answer (Mount.upload path data m) = .error (.invalidPath text)) ↔ ¬ p.Names inner) ∧
      ((∃ text, answer (Mount.upload path data m) = .error (.badMessage text)) ↔
        p.Names inner ∧ ¬ Storable data) ∧
      (¬ (p.Names inner ∧ Storable data) →
        final (Mount.upload path data m) = { m with device := begun m.device })) ∧
    (∀ (α : Type) (r : Request α) watched d e d', BulkReads m p r watched d →
      fetch p watched d = .error e d' →
      r.browse m = .error e { m with device := d' } ∧ d'.state = m.device.state ∧
        Fault watched (some bulkTimeout) e) ∧
    (∀ (α : Type) (r : Request α) e m', r.operation ≠ .upload → r.browse m = .error e m' →
      m'.device.state = m.device.state ∨
        ∃ watched d bank d', BulkReads m p r watched d ∧ fetch p watched d = .ok bank d' ∧
          m'.device.state = d'.state) := by
  refine ⟨?_, ?_, ?_⟩
  · intro path inner data named
    have cases {e : Failure} (failed : answer (Mount.upload path data m) = .error e) :=
      upload_error_cases serves active named failed
    refine ⟨⟨?_, ?_⟩, ⟨?_, ?_⟩, ?_⟩
    · rintro ⟨text, refused⟩
      rcases cases refused with ⟨unnamed, -⟩ | ⟨-, -, text, other⟩ | ⟨-, -, fault⟩
      · exact unnamed
      · cases other
      · cases fault
    · intro unnamed
      rw [upload_unnamed serves active named unnamed]
      exact ⟨inner, rfl⟩
    · rintro ⟨text, refused⟩
      rcases cases refused with ⟨-, other⟩ | ⟨names, unstorable, -⟩ | ⟨-, -, fault⟩
      · cases other
      · exact ⟨names, unstorable⟩
      · cases fault
    · rintro ⟨names, unstorable⟩
      obtain ⟨text, refused⟩ := upload_unstorable serves active named names unstorable
      rw [refused]
      exact ⟨text, rfl⟩
    · intro refused
      by_cases names : p.Names inner
      · obtain ⟨text, run⟩ := upload_unstorable serves active named names (not_and.mp refused names)
        rw [run]
        rfl
      · rw [upload_unnamed serves active named names]
        rfl
  · intro α r watched d e d' reads failed
    obtain ⟨kept, fault⟩ := fetch_error failed
    exact ⟨failed_of_bulkReads serves active reads failed, kept.trans reads.state, fault⟩
  · intro α r e m' other failed
    exact failed_state serves active other failed

def unplugged : Mount VirtualPort where
  device :=
    { link := Link.ofPort "virtual:0" (VirtualPort.silent "virtual").unplug Timing.standard
      state := some (.pedal readPedal) }
  volumes := [presetVolume VirtualPort]

theorem unplugged_unchanged :
    let m := unplugged
    (∃ text, answer (Mount.upload "/preset/1" leadDump m) = .error (.invalidPath text)) ∧
    (∃ text, answer (Mount.upload "/preset/0:Lead" [] m) = .error (.badMessage text)) ∧
    final (Mount.upload "/preset/0:Lead" [] m) = { m with device := begun m.device } ∧
    ∃ m', Mount.list "/preset" m = .error (.io "virtual port unplugged") m' ∧
      m'.device.state = some (.pedal readPedal) := by
  intro m
  have serves : Serves readPedal m := ⟨rfl, rfl⟩
  have active : ¬ m.device.Cancelled := by decide +kernel
  obtain ⟨uploads, fails, -⟩ := refused_unchanged serves active
  have outside : ¬ readPedal.Names "/1" := by
    rintro ⟨id, parsed, -, below⟩
    have isOne : DevicePath.id "/1" = .ok 1 := by decide +kernel
    rw [isOne] at parsed
    cases parsed
    exact absurd below (by decide)
  have names : readPedal.Names "/0:Lead" := ⟨0, by decide +kernel, by decide, by decide⟩
  have unstorable : ¬ Storable [] := fun storable => absurd storable.window (by decide)
  obtain ⟨path, -, -⟩ := uploads "/preset/1" "/1" leadDump (by decide +kernel)
  obtain ⟨-, data, untouched⟩ := uploads "/preset/0:Lead" "/0:Lead" [] (by decide +kernel)
  refine ⟨path.mpr outside, data.mpr ⟨names, unstorable⟩, untouched fun both => unstorable both.2, ?_⟩
  have broken : answer (fetch readPedal false m.device) = .error (.io "virtual port unplugged") := by
    decide +kernel
  cases run : fetch readPedal false m.device with
  | ok bank d =>
    rw [run] at broken
    cases broken
  | error e d =>
    rw [run] at broken
    cases broken
    have root : Slots.inside "/preset" = .ok "/" := by decide +kernel
    obtain ⟨failed, kept, -⟩ := fails _ (.list "/preset") _ _ _ _ (.list root) run
    exact ⟨_, failed, kept⟩

end Eventide

end MidiStorage
