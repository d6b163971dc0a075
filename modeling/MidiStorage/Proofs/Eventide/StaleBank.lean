import MidiStorage.Port.Virtual
import MidiStorage.Proofs.Eventide.Retarget
import MidiStorage.Proofs.Eventide.Storing

namespace MidiStorage.Eventide

variable {P : Type}

namespace Presets

/-- An upload or a rename that fails although the whole preset message was accepted leaves a bank
that contradicts the message exactly when the wait for an answer was disturbed and the bank
contradicted it before. -/
theorem failed_store_agrees_iff [Port P] (d d' : Device P) (p : Pedal) (index : Nat)
    (message : Bytes) (e : Failure) (known : d.state = some (.pedal p)) :
    (∀ path data, p.Targets path data index message →
      upload path data d = .error e d' → d'.link.accepted = d.link.accepted ++ message →
      ∃ p', d'.state = some (.pedal p') ∧
        (p'.Agrees index message ↔
          Undisturbed message true d.link.started ∨ p.Agrees index message)) ∧
    (∀ source target preset d₁,
      p.Targets source (renamed preset target).toMessage index message →
      read p source false d = .ok preset d₁ →
      rename source target d = .error e d' → d'.link.accepted = d₁.link.accepted ++ message →
      ∃ p', d'.state = some (.pedal p') ∧
        (p'.Agrees index message ↔
          Undisturbed message false d₁.link ∨ (Preset.ofDump message).head? = some preset)) := by
  constructor
  -- an upload has no step between the start of its job and the store
  · intro path data targets failed whole
    exact store_failed_agrees (d := { d with link := d.link.started }) known targets
      (upload_error failed) whole
  · intro source target preset d₁ targets found failed whole
    obtain ⟨id, parsed, inside, stored⟩ := renamed_targets targets none
    obtain ⟨⟨bank, state, kept⟩, accepted⟩ := read_ok known parsed inside found
    rcases rename_error known parsed found failed with ⟨-, rfl⟩ | failed
    -- a rename refused for its new name sends nothing
    · rw [accepted, List.append_assoc, List.self_eq_append_right] at whole
      obtain ⟨id, -, -, encoded⟩ := targets
      exact absurd (List.append_eq_nil_iff.mp whole).2 (retarget_ne_nil encoded)
    · obtain ⟨id', parsed', -, stored⟩ := renamed_targets targets (some bank)
      rw [parsed] at parsed'
      cases parsed'
      obtain ⟨p', state', agrees⟩ := store_failed_agrees state stored failed whole
      refine ⟨p', state', agrees.trans (or_congr_right ?_)⟩
      constructor
      · intro before
        obtain ⟨sent, isSent, inBank⟩ := before bank rfl
        rw [kept] at inBank
        cases inBank
        exact isSent
      · intro isSent other same
        cases same
        exact ⟨preset, isSent, kept⟩

def oldPreset : Preset := ⟨#v["[1] 0", "a", "b", "c", "d", "e"], "Old"⟩

def readPedal : Pedal :=
  { deviceId := 0, kind := .h9, first := 0, count := 1, bank := some [oldPreset] }

def answering : Device VirtualPort where
  link := Link.ofPort "virtual:0"
    { name := "virtual", respond := fun _ _ => { parts := [[0xF0, 0x01, 0xF7]] } } Timing.standard
  state := some (.pedal readPedal)

def newDump : Bytes := (renamed oldPreset "New").toMessage

/-- The failure of an operation that the pedal answered, its message sent and its bank kept. -/
def Answered (run : EStateM.Result Failure (Device VirtualPort) Unit) : Bool :=
  match run with
  | .ok _ _ => false
  | .error e d => e = .io "unexpected reply to preset upload" ∧
      d.link.accepted = answering.link.accepted ++ newDump ∧ d.state = answering.state

theorem answered_failure {run : EStateM.Result Failure (Device VirtualPort) Unit}
    (answered : Answered run = true) :
    ∃ d, run = .error (.io "unexpected reply to preset upload") d ∧
      d.link.accepted = answering.link.accepted ++ newDump ∧ d.state = some (.pedal readPedal) := by
  cases run with
  | ok u d => cases answered
  | error e d =>
    obtain ⟨rfl, whole, kept⟩ := of_decide_eq_true answered
    exact ⟨d, rfl, whole, kept⟩

theorem readPedal_stale : ¬ readPedal.Agrees 0 newDump := by
  intro same
  obtain ⟨preset, sent, inBank⟩ := same [oldPreset] rfl
  have differ : (Preset.ofDump newDump).head? ≠ some oldPreset := by decide +kernel
  cases inBank
  exact differ sent

theorem readPedal_targets : readPedal.Targets "/0" newDump 0 newDump :=
  ⟨0, by decide +kernel, by decide +kernel, by decide +kernel⟩

theorem answered_store_is_stale :
    (∃ d', upload "/0" newDump answering =
        .error (.io "unexpected reply to preset upload") d' ∧
      d'.link.accepted = answering.link.accepted ++ newDump ∧
      d'.state = some (.pedal readPedal) ∧ ¬ readPedal.Agrees 0 newDump ∧
      ¬ Undisturbed newDump true answering.link.started) ∧
    (∃ d', rename "/0" "New" answering =
        .error (.io "unexpected reply to preset upload") d' ∧
      d'.link.accepted = answering.link.accepted ++ newDump ∧
      d'.state = some (.pedal readPedal) ∧ ¬ readPedal.Agrees 0 newDump ∧
      ¬ Undisturbed newDump false answering.link) := by
  constructor
  · have answered : Answered (upload "/0" newDump answering) = true := by decide +kernel
    obtain ⟨d', failed, whole, state⟩ := answered_failure answered
    obtain ⟨p', state', agrees⟩ := (failed_store_agrees_iff answering d' readPedal 0 newDump _ rfl).1
      "/0" newDump readPedal_targets failed whole
    rw [state] at state'
    cases state'
    exact ⟨d', failed, whole, state, readPedal_stale,
      fun undisturbed => readPedal_stale (agrees.mpr (Or.inl undisturbed))⟩
  · have answered : Answered (rename "/0" "New" answering) = true := by decide +kernel
    obtain ⟨d', failed, whole, state⟩ := answered_failure answered
    have found : read readPedal "/0" false answering = .ok oldPreset answering := by
      have parsed : DevicePath.id "/0" = .ok 0 := by decide +kernel
      have inside : readPedal.index 0 "/0" = .ok 0 := by decide +kernel
      rw [read_kept parsed inside rfl]
      rfl
    obtain ⟨p', state', agrees⟩ := (failed_store_agrees_iff answering d' readPedal 0 newDump _ rfl).2
      "/0" "New" oldPreset answering readPedal_targets found failed whole
    rw [state] at state'
    cases state'
    exact ⟨d', failed, whole, state, readPedal_stale,
      fun undisturbed => readPedal_stale (agrees.mpr (Or.inl undisturbed))⟩

end Presets

end MidiStorage.Eventide
