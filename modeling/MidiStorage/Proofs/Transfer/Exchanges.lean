import MidiStorage.Proofs.Progress.Reports
import MidiStorage.Proofs.Transfer.Sending

namespace MidiStorage

open MidiStorage.Action

variable {P : Type}

namespace Exchange

theorem onLink_of_ok {α : Type} {a : Action (Link P) α} {x : Exchange P} {y : α} {l : Link P}
    (inner : a x.link = .ok y l) : onLink a x = .ok y { x with link := l } :=
  within_of_ok inner

theorem transmit_of_ok [Port P] {l l' : Link P} {t : Transfer}
    (sent : sendSlices t.watched (t.raw.slices Transfer.sliceSize) l = .ok () l') :
    transmit ⟨l, t⟩ = .ok () ⟨l', { t with phase := .waiting }⟩ := by
  have inner := onLink_of_ok (x := ⟨l, { t with phase := .sending }⟩) (outcome_of_ok sent)
  rw [transmit, enter, bind_of_ok (modify_apply _ _), bind_of_ok (get_apply _), bind_of_ok inner]
  rfl

theorem transmit_of_error [Port P] {l l' : Link P} {t : Transfer} {e : Failure}
    (failed : sendSlices t.watched (t.raw.slices Transfer.sliceSize) l = .error e l') :
    transmit ⟨l, t⟩ = .error e ⟨l', { t with phase := .finished }⟩ := by
  have inner := onLink_of_ok (x := ⟨l, { t with phase := .sending }⟩) (outcome_of_error failed)
  rw [transmit, enter, bind_of_ok (modify_apply _ _), bind_of_ok (get_apply _), bind_of_ok inner]
  rfl

theorem receive_of_ok [Port P] {l l' : Link P} {t : Transfer} {bytes : Bytes}
    (heard : collect { t with phase := .receiving } l = .ok bytes l') :
    receive ⟨l, t⟩ = .ok () ⟨l', { t with raw := bytes, phase := .finished }⟩ := by
  have inner := onLink_of_ok (x := ⟨l, { t with phase := .receiving }⟩) (outcome_of_ok heard)
  rw [receive, enter, bind_of_ok (modify_apply _ _), bind_of_ok (get_apply _), bind_of_ok inner]
  rfl

theorem receive_of_error [Port P] {l l' : Link P} {t : Transfer} {e : Failure}
    (failed : collect { t with phase := .receiving } l = .error e l') :
    receive ⟨l, t⟩ = .error e ⟨l', { t with phase := .finished }⟩ := by
  have inner := onLink_of_ok (x := ⟨l, { t with phase := .receiving }⟩) (outcome_of_error failed)
  rw [receive, enter, bind_of_ok (modify_apply _ _), bind_of_ok (get_apply _), bind_of_ok inner]
  rfl

end Exchange

namespace Link

def remembered (l : Link P) (t : Transfer) : Option Bytes :=
  if t.cacheable && !t.raw.isEmpty then l.cache.get? t.raw else none

def keep (l : Link P) (t : Transfer) (reply : Bytes) : Link P :=
  if t.cacheable && !t.raw.isEmpty then { l with cache := l.cache.insert t.raw reply } else l

theorem mem_of_remembered {l : Link P} {t : Transfer} {reply : Bytes}
    (known : l.remembered t = some reply) : (t.raw, reply) ∈ l.cache.entries := by
  unfold remembered ReplyCache.get? at known
  split_ifs at known
  obtain ⟨before, after, entries, -⟩ := List.lookup_eq_some_iff.mp known
  rw [entries]
  apply List.mem_append_right
  apply List.mem_cons_self

theorem remembered_of_disabled {l : Link P} (disabled : l.cache.enabled = false) (t : Transfer) :
    l.remembered t = none := by
  simp [remembered, ReplyCache.get?, disabled]

theorem remembered_uncached {t : Transfer} (uncached : t.cacheable = false) (l : Link P) :
    l.remembered t = none := by
  simp [remembered, uncached]

theorem keep_uncached {t : Transfer} (uncached : t.cacheable = false) (l : Link P) (reply : Bytes) :
    l.keep t reply = l := by
  simp [keep, uncached]

theorem keep_disabled {l : Link P} (disabled : l.cache.enabled = false) (t : Transfer)
    (reply : Bytes) : l.keep t reply = l := by
  simp [keep, ReplyCache.insert, disabled]

@[simp] theorem keep_port (l : Link P) (t : Transfer) (reply : Bytes) :
    (l.keep t reply).port = l.port := by
  unfold keep
  split_ifs <;> rfl

theorem keep_framer (l : Link P) (t : Transfer) (reply : Bytes) :
    (l.keep t reply).framer = l.framer := by
  unfold keep
  split_ifs <;> rfl

@[simp] theorem keep_accepted (l : Link P) (t : Transfer) (reply : Bytes) :
    (l.keep t reply).accepted = l.accepted := by
  unfold keep
  split_ifs <;> rfl

theorem keep_entries (l : Link P) (t : Transfer) (reply : Bytes) :
    ∃ cache, l.keep t reply = { l with cache } ∧
      ∀ entry ∈ cache.entries, entry ∈ l.cache.entries ∨
        entry = (t.raw, reply) ∧ t.cacheable = true := by
  unfold keep
  split_ifs with cacheable
  · refine ⟨_, rfl, ?_⟩
    intro entry member
    unfold ReplyCache.insert at member
    split_ifs at member
    · rcases List.mem_cons.mp member with rfl | old
      · right
        rw [Bool.and_eq_true] at cacheable
        exact ⟨rfl, cacheable.1⟩
      · left
        exact (List.mem_filter.mp old).1
    · left
      exact member
  · refine ⟨l.cache, rfl, ?_⟩
    intro entry member
    left
    exact member

end Link

namespace Exchange

variable [Port P] {l l₁ l₂ : Link P} {t : Transfer} {reply : Bytes} {e : Failure}

theorem perform_of_remembered (known : l.remembered t = some reply) :
    perform ⟨l, t⟩ = .ok () ⟨l, { t with raw := reply, phase := .finished }⟩ := by
  unfold Link.remembered at known
  unfold perform
  rw [bind_of_ok (get_apply _)]
  simp only [known, modify_apply]

theorem perform_of_unknown (unknown : l.remembered t = none) :
    perform ⟨l, t⟩ = (transmit >>= fun _ => receive >>= fun _ =>
      modify fun x => { x with link := x.link.keep t x.transfer.raw }) ⟨l, t⟩ := by
  unfold Link.remembered at unknown
  unfold perform
  rw [bind_of_ok (get_apply _)]
  simp only [unknown]
  cases sent : transmit ⟨l, t⟩ with
  | error e x => rw [bind_of_error sent, bind_of_error sent]
  | ok u x =>
    rw [bind_of_ok sent, bind_of_ok sent]
    cases heard : receive x with
    | error e y => rw [bind_of_error heard, bind_of_error heard]
    | ok u y =>
      rw [bind_of_ok heard, bind_of_ok heard, modify_apply]
      unfold Link.keep
      split_ifs <;> rfl

theorem perform_of_unsent (unknown : l.remembered t = none)
    (failed : sendSlices t.watched (t.raw.slices Transfer.sliceSize) l = .error e l₁) :
    perform ⟨l, t⟩ = .error e ⟨l₁, { t with phase := .finished }⟩ := by
  rw [perform_of_unknown unknown, bind_of_error (transmit_of_error failed)]

theorem perform_of_unheard (unknown : l.remembered t = none)
    (sent : sendSlices t.watched (t.raw.slices Transfer.sliceSize) l = .ok () l₁)
    (failed : collect { t with phase := .receiving } l₁ = .error e l₂) :
    perform ⟨l, t⟩ = .error e ⟨l₂, { t with phase := .finished }⟩ := by
  have unheard := receive_of_error (t := { t with phase := .waiting }) failed
  rw [perform_of_unknown unknown, bind_of_ok (transmit_of_ok sent), bind_of_error unheard]

theorem perform_of_heard (unknown : l.remembered t = none)
    (sent : sendSlices t.watched (t.raw.slices Transfer.sliceSize) l = .ok () l₁)
    (heard : collect { t with phase := .receiving } l₁ = .ok reply l₂) :
    perform ⟨l, t⟩ = .ok () ⟨l₂.keep t reply, { t with raw := reply, phase := .finished }⟩ := by
  have received := receive_of_ok (t := { t with phase := .waiting }) heard
  rw [perform_of_unknown unknown, bind_of_ok (transmit_of_ok sent), bind_of_ok received, modify_apply]

theorem perform_of_uncached (uncached : t.cacheable = false)
    (sent : sendSlices t.watched (t.raw.slices Transfer.sliceSize) l = .ok () l₁)
    (heard : collect { t with phase := .receiving } l₁ = .ok reply l₂) :
    perform ⟨l, t⟩ = .ok () ⟨l₂, { t with raw := reply, phase := .finished }⟩ := by
  have performed := perform_of_heard (Link.remembered_uncached uncached l) sent heard
  rwa [Link.keep_uncached uncached] at performed

end Exchange

namespace Link

theorem withTransfer_of_ok {a : Action (Exchange P) Unit} {l : Link P} {t : Transfer}
    {x : Exchange P} (inner : a ⟨l, t⟩ = .ok () x) :
    withTransfer t a l = .ok x.transfer.raw x.link := by
  rw [withTransfer, inner]

theorem withTransfer_of_error {a : Action (Exchange P) Unit} {l : Link P} {t : Transfer}
    {x : Exchange P} {e : Failure} (inner : a ⟨l, t⟩ = .error e x) :
    withTransfer t a l = .error e x.link := by
  rw [withTransfer, inner]

inductive Answered [Port P] (t : Transfer) (l : Link P) : EStateM.Result Failure (Link P) Bytes → Prop
  | remembered {reply : Bytes} (known : l.remembered t = some reply) : Answered t l (.ok reply l)
  | unsent {e : Failure} {l₁ : Link P} (unknown : l.remembered t = none)
    (failed : Exchange.sendSlices t.watched (t.raw.slices Transfer.sliceSize) l = .error e l₁) :
    Answered t l (.error e l₁)
  | unheard {e : Failure} {l₁ l₂ : Link P} (unknown : l.remembered t = none)
    (sent : Exchange.sendSlices t.watched (t.raw.slices Transfer.sliceSize) l = .ok () l₁)
    (failed : Exchange.collect { t with phase := .receiving } l₁ = .error e l₂) :
    Answered t l (.error e l₂)
  | heard {reply : Bytes} {l₁ l₂ : Link P} (unknown : l.remembered t = none)
    (sent : Exchange.sendSlices t.watched (t.raw.slices Transfer.sliceSize) l = .ok () l₁)
    (heard : Exchange.collect { t with phase := .receiving } l₁ = .ok reply l₂) :
    Answered t l (.ok reply (l₂.keep t reply))

def exchange [Port P] (t : Transfer) : Action (Link P) Bytes := withTransfer t Exchange.perform

variable [Port P]

theorem exchange_of_remembered {l : Link P} {t : Transfer} {reply : Bytes}
    (known : l.remembered t = some reply) : exchange t l = .ok reply l :=
  withTransfer_of_ok (Exchange.perform_of_remembered known)

theorem exchange_answered (t : Transfer) (l : Link P) : Answered t l (exchange t l) := by
  cases known : l.remembered t with
  | some reply =>
    rw [exchange_of_remembered known]
    exact .remembered known
  | none =>
    unfold exchange
    cases sent : Exchange.sendSlices t.watched (t.raw.slices Transfer.sliceSize) l with
    | error e l₁ =>
      rw [withTransfer_of_error (Exchange.perform_of_unsent known sent)]
      exact .unsent known sent
    | ok u l₁ =>
      cases heard : Exchange.collect { t with phase := .receiving } l₁ with
      | error e l₂ =>
        rw [withTransfer_of_error (Exchange.perform_of_unheard known sent heard)]
        exact .unheard known sent heard
      | ok reply l₂ =>
        rw [withTransfer_of_ok (Exchange.perform_of_heard known sent heard)]
        exact .heard known sent heard

theorem exchange_uncached_ok {l l' : Link P} {t : Transfer} {reply : Bytes}
    (uncached : t.cacheable = false) (run : exchange t l = .ok reply l') :
    ∃ l₁, Exchange.sendSlices t.watched (t.raw.slices Transfer.sliceSize) l = .ok () l₁ ∧
      Exchange.collect { t with phase := .receiving } l₁ = .ok reply l' := by
  have answered := exchange_answered t l
  rw [run] at answered
  cases answered with
  | remembered known =>
    rw [remembered_uncached uncached] at known
    cases known
  | heard unknown sent heard =>
    rw [keep_uncached uncached]
    exact ⟨_, sent, heard⟩

theorem transmitAll_of_ok {message : Bytes} {watched : Bool} {l l' : Link P}
    (sent : Exchange.sendSlices watched (message.slices Transfer.sliceSize) l = .ok () l') :
    transmitAll message watched l = .ok () { l' with cache := l'.cache.clear } := by
  have inner := outcome_of_ok (withTransfer_of_ok (Exchange.transmit_of_ok
    (t := { raw := message, timeout := l.timing.replyTimeout, watched }) sent))
  rw [transmitAll, bind_of_ok (get_apply _), bind_of_ok inner]
  rfl

theorem transmitAll_of_error {message : Bytes} {watched : Bool} {l l' : Link P} {e : Failure}
    (failed : Exchange.sendSlices watched (message.slices Transfer.sliceSize) l = .error e l') :
    transmitAll message watched l = .error e { l' with cache := l'.cache.clear } := by
  have inner := outcome_of_error (withTransfer_of_error (Exchange.transmit_of_error
    (t := { raw := message, timeout := l.timing.replyTimeout, watched }) failed))
  rw [transmitAll, bind_of_ok (get_apply _), bind_of_ok inner]
  rfl

theorem transmitAll_sent (message : Bytes) (watched : Bool) (l : Link P) :
    Sent message l (transmitAll message watched l) := by
  have sent := Exchange.sendSlices_message watched message l
  cases result : Exchange.sendSlices watched (message.slices Transfer.sliceSize) l with
  | ok x l' =>
    rw [result] at sent
    rw [transmitAll_of_ok result]
    exact sent
  | error e l' =>
    rw [result] at sent
    rw [transmitAll_of_error result]
    exact sent

def unremembering (l : Link P) : Link P := { l with cache := l.cache.clear }

def dump (l : Link P) : Transfer :=
  { raw := [], timeout := l.timing.dumpTimeout, batch := true, watched := true, phase := .receiving }

theorem sendSysex_of_ok {bytes : Bytes} {l l₁ : Link P}
    (sent : Exchange.sendSlices true (bytes.slices Transfer.sliceSize) l.started = .ok () l₁) :
    sendSysex bytes l = .ok () l₁.unremembering.finished := by
  unfold sendSysex
  rw [bind_of_ok (start_apply l), bind_of_ok (transmitAll_of_ok sent)]
  rfl

theorem sendSysex_of_error {bytes : Bytes} {l l₁ : Link P} {e : Failure}
    (failed : Exchange.sendSlices true (bytes.slices Transfer.sliceSize) l.started = .error e l₁) :
    sendSysex bytes l = .error e l₁.unremembering := by
  unfold sendSysex
  rw [bind_of_ok (start_apply l), bind_of_error (transmitAll_of_error failed)]
  rfl

theorem receiveSysex_eq (l : Link P) :
    receiveSysex l = (withTransfer { l.dump with phase := .waiting } Exchange.receive >>= fun bytes =>
      report (·.advance 1.0) >>= fun _ => pure bytes) l.started := by
  unfold receiveSysex
  rw [bind_of_ok (start_apply l), bind_of_ok (get_apply _)]
  rfl

theorem receiveSysex_of_ok {l l₁ : Link P} {bytes : Bytes}
    (heard : Exchange.collect l.dump l.started = .ok bytes l₁) :
    receiveSysex l = .ok bytes l₁.finished := by
  have received := withTransfer_of_ok
    (Exchange.receive_of_ok (t := { l.dump with phase := .waiting }) heard)
  rw [receiveSysex_eq, bind_of_ok received]
  rfl

theorem receiveSysex_of_error {l l₁ : Link P} {e : Failure}
    (failed : Exchange.collect l.dump l.started = .error e l₁) :
    receiveSysex l = .error e l₁ := by
  have refused := withTransfer_of_error
    (Exchange.receive_of_error (t := { l.dump with phase := .waiting }) failed)
  rw [receiveSysex_eq, bind_of_error refused]

end Link

end MidiStorage
