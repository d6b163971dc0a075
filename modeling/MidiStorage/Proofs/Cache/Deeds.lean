import MidiStorage.Proofs.Cache.Durable
import MidiStorage.Proofs.Cache.Uses

namespace MidiStorage

open MidiStorage.Action
open MidiStorage.Eventide

variable {P : Type}

namespace Device

inductive Deed
  | link (use : Link.Use)
  /-- Sends a transfer alone, as an upgrade does with its image. -/
  | tell (t : Transfer)
  | hear (t : Transfer)
  | send (bytes : Bytes)
  | receive (timeout : Nat) (watched : Bool)
  | drain
  | programChange (channel program : UInt8)
  | sendSysex (bytes : Bytes)
  | receiveSysex
  | list (dir : String)
  | download (path : String)
  | upload (path : String) (data : Bytes)
  | rename (source target : String)

variable [Port P]

def Deed.action : Deed → Action (Device P) Unit
  | .link use => onLink use.action
  | .tell t => onLink do let _ ← Link.withTransfer t Exchange.transmit
  | .hear t => onLink do let _ ← Link.withTransfer t Exchange.receive
  | .send bytes => onLink do let _ ← Link.send bytes
  | .receive timeout watched => onLink do let _ ← Link.receive timeout watched
  | .drain => onLink Link.drain
  | .programChange channel program => onLink (Link.programChange channel program)
  | .sendSysex bytes => onLink (Link.sendSysex bytes)
  | .receiveSysex => onLink do let _ ← Link.receiveSysex
  | .list dir => do let _ ← Presets.list dir
  | .download path => do let _ ← Presets.download path
  | .upload path data => Presets.upload path data
  | .rename source target => Presets.rename source target

def withRun (d : Device P) (run : Run) : Device P := { d with link := { d.link with run } }

def did (d : Device P) (visit : Run × Deed) : Device P := final (visit.2.action (d.withRun visit.1))

theorem did_exchange (d : Device P) (run : Run) (t : Transfer) :
    (d.did (run, .link (.exchange t))).link = final (Link.exchange t (d.withRun run).link) := by
  change (final (onLink (Link.Use.action (.exchange t)) (d.withRun run))).link = _
  rw [final_onLink]
  exact final_bind_pure (Link.exchange t) (fun _ => ()) _

/-- In the course of these deeds the reply was heard from the port, in answer to the transfer. -/
def Heard (d : Device P) (visits : List (Run × Deed)) (t : Transfer) (reply : Bytes) : Prop :=
  ∃ before run after, visits = before ++ (run, .link (.exchange t)) :: after ∧
    ((before.foldl did d).withRun run).link.remembered t = none ∧
    answer (Link.exchange t ((before.foldl did d).withRun run).link) = .ok reply

theorem Heard.later {d : Device P} {visit : Run × Deed} {visits : List (Run × Deed)} {t : Transfer}
    {reply : Bytes} (heard : (d.did visit).Heard visits t reply) : d.Heard (visit :: visits) t reply := by
  obtain ⟨before, run, after, rfl, unknown, answered⟩ := heard
  exact ⟨visit :: before, run, after, rfl, unknown, answered⟩

theorem Heard.andThen {d : Device P} {visits : List (Run × Deed)} {t : Transfer} {reply : Bytes}
    (heard : d.Heard visits t reply) (others : List (Run × Deed)) :
    d.Heard (visits ++ others) t reply := by
  obtain ⟨before, run, after, rfl, unknown, answered⟩ := heard
  refine ⟨before, run, after ++ others, ?_, unknown, answered⟩
  rw [List.append_assoc, List.cons_append]

variable {I : Link P → Prop}

/-- A deed does not break what no elementary step breaks. -/
theorem did_preserves (durable : Link.Durable I) {visit : Run × Deed}
    (exchange : ∀ t, visit.2 = .link (.exchange t) → Preserves I (Link.exchange t)) {d : Device P}
    (before : I d.link) : I (d.did visit).link := by
  obtain ⟨run, deed⟩ := visit
  have lift {a : Action (Link P) Unit} (inner : Preserves I a) : Preserves (I ·.link) (onLink a) :=
    Presets.onLink_preserves inner
  have storing : Presets.Storing (P := P) (I ·.link) := Presets.storing_of_enduring durable.toEnduring
  have action : Preserves (I ·.link) (deed.action (P := P)) := by
    cases deed with
    | link use =>
      refine lift (durable.action (fun _ => durable.enable) durable.disable ?_)
      rintro t rfl
      exact exchange t rfl
    | tell t => exact lift ((durable.tell t).bind fun _ => Preserves.pure _ ())
    | hear t => exact lift ((durable.toLasting.hear t).bind fun _ => Preserves.pure _ ())
    | send bytes => exact lift ((Link.send_preserves durable.write _).bind fun _ => Preserves.pure _ ())
    | receive timeout watched => exact lift ((durable.receive _ _).bind fun _ => Preserves.pure _ ())
    | drain => exact lift durable.drain
    | programChange channel program => exact lift (durable.programChange _ _)
    | sendSysex bytes => exact lift (durable.sendSysex bytes)
    | receiveSysex => exact lift (durable.receiveSysex.bind fun _ => Preserves.pure _ ())
    | list dir =>
      have pauses (watched : Bool) (duration : Nat) :
          Preserves (I ·.link) (onLink (Link.pause watched duration)) :=
        Presets.onLink_preserves (durable.pause watched duration)
      exact (storing.toReading.list pauses dir).bind fun _ => Preserves.pure _ ()
    | download path => exact (storing.toReading.download path).bind fun _ => Preserves.pure _ ()
    | upload path data => exact storing.upload path data
    | rename source target => exact storing.rename source target
  exact action _ (durable.run d.link run before)

theorem deeds_preserve (durable : Link.Durable I) (kept : ∀ t l reply, I l → I (l.keep t reply))
    {d : Device P} (before : I d.link) (visits : List (Run × Deed)) : I (visits.foldl did d).link := by
  induction visits generalizing d with
  | nil => exact before
  | cons visit visits ih =>
    apply ih
    refine did_preserves durable ?_ before
    intro t _
    exact durable.exchange (kept t)

end Device

namespace Link

variable [Port P]

theorem remembers_durable (E : Bytes × Bytes → Prop) :
    Durable (P := P) fun l => ∀ entry ∈ l.cache.entries, E entry where
  run _ _ kept := kept
  read _ kept := kept
  push _ _ kept := kept
  pop _ kept := kept
  popAll _ kept := kept
  write _ _ kept := kept
  clear _ _ entry none := by cases none
  enable _ kept := kept
  disable _ _ entry none := by cases none
  reset _ kept := kept
  journal _ _ kept := kept

theorem exchange_remembers (t : Transfer) (l : Link P) (entry : Bytes × Bytes)
    (member : entry ∈ (final (exchange t l)).cache.entries) :
    entry ∈ l.cache.entries ∨ t.cacheable = true ∧ t.raw = entry.1 ∧ l.remembered t = none ∧
      answer (exchange t l) = .ok entry.2 := by
  have durable := remembers_durable (P := P) (· ∈ l.cache.entries)
  have sending := durable.sendSlices t.watched (t.raw.slices Transfer.sliceSize)
  have waiting := Exchange.collect_preserves durable.toLasting { t with phase := .receiving }
  have before : ∀ entry ∈ l.cache.entries, entry ∈ l.cache.entries := fun _ old => old
  have answered := exchange_answered t l
  generalize exchange t l = result at answered member ⊢
  cases answered with
  | remembered known =>
    left
    exact member
  | unsent unknown failed =>
    left
    exact sending.of_error before failed entry member
  | unheard unknown sent failed =>
    left
    exact waiting.of_error (sending.of_ok before sent) failed entry member
  | @heard reply l₁ l₂ unknown sent heard =>
    obtain ⟨cache, kept, entries⟩ := keep_entries l₂ t reply
    change entry ∈ (l₂.keep t reply).cache.entries at member
    rw [kept] at member
    rcases entries entry member with old | ⟨rfl, cacheable⟩
    · left
      exact waiting.of_ok (sending.of_ok before sent) heard entry old
    · right
      exact ⟨cacheable, rfl, unknown, rfl⟩

end Link

namespace Device

variable [Port P]

theorem did_remembers (d : Device P) (visit : Run × Deed) (entry : Bytes × Bytes)
    (member : entry ∈ (d.did visit).link.cache.entries) :
    entry ∈ d.link.cache.entries ∨
      ∃ t, t.cacheable = true ∧ t.raw = entry.1 ∧ d.Heard [visit] t entry.2 := by
  have durable := Link.remembers_durable (P := P) (· ∈ d.link.cache.entries)
  by_cases exchange : ∃ t, visit.2 = .link (.exchange t)
  · obtain ⟨run, deed⟩ := visit
    obtain ⟨t, rfl⟩ := exchange
    rw [did_exchange] at member
    rcases Link.exchange_remembers t _ entry member with old | ⟨cacheable, asked, unknown, answered⟩
    · left
      exact old
    · right
      exact ⟨t, cacheable, asked, [], run, [], rfl, unknown, answered⟩
  · left
    refine did_preserves durable ?_ (fun _ old => old) entry member
    intro t asks
    exact absurd ⟨t, asks⟩ exchange

theorem remembers (d : Device P) (visits : List (Run × Deed)) (entry : Bytes × Bytes)
    (member : entry ∈ (visits.foldl did d).link.cache.entries) :
    entry ∈ d.link.cache.entries ∨
      ∃ t, t.cacheable = true ∧ t.raw = entry.1 ∧ d.Heard visits t entry.2 := by
  induction visits generalizing d with
  | nil =>
    left
    exact member
  | cons visit visits ih =>
    rcases ih (d.did visit) member with first | ⟨t, cacheable, asked, heard⟩
    · rcases did_remembers d visit entry first with old | ⟨t, cacheable, asked, heard⟩
      · left
        exact old
      · right
        exact ⟨t, cacheable, asked, heard.andThen visits⟩
    · right
      exact ⟨t, cacheable, asked, heard.later⟩

end Device

end MidiStorage
