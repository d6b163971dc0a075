import MidiStorage.Port.Virtual
import MidiStorage.Proofs.Cache.Deeds

namespace MidiStorage

open MidiStorage.Action

variable {P : Type}

namespace Link

variable [Port P]

theorem forgotten_durable : Durable (P := P) (·.cache.entries = []) where
  run _ _ nothing := nothing
  read _ nothing := nothing
  push _ _ nothing := nothing
  pop _ nothing := nothing
  popAll _ nothing := nothing
  write _ _ nothing := nothing
  clear _ _ := rfl
  enable _ nothing := nothing
  disable _ _ := rfl
  reset _ nothing := nothing
  journal _ _ nothing := nothing

theorem transmitAll_forgets (message : Bytes) (watched : Bool) (l : Link P) :
    (final (transmitAll message watched l)).cache.entries = [] := by
  cases sent : Exchange.sendSlices watched (message.slices Transfer.sliceSize) l with
  | error e l₁ =>
    rw [transmitAll_of_error sent]
    rfl
  | ok u l₁ =>
    rw [transmitAll_of_ok sent]
    rfl

theorem exchange_accepted (t : Transfer) (l : Link P) :
    (final (exchange t l)).accepted.length ≤ l.accepted.length + t.raw.length := by
  have sending := Exchange.sendSlices_message t.watched t.raw l
  have comes := exchange_answered t l
  generalize exchange t l = result at comes
  cases comes with
  | remembered known => exact Nat.le_add_right _ _
  | unsent unknown failed =>
    rw [failed] at sending
    obtain ⟨k, inside, part⟩ := sending
    simp only [final, part, List.length_append, List.length_take]
    omega
  | unheard unknown sent failed =>
    rw [sent] at sending
    have waiting := (Exchange.collect_preserves (accepted_lasting _) _).of_error sending failed
    simp only [final, waiting, List.length_append, Nat.le_refl]
  | heard unknown sent heard =>
    rw [sent] at sending
    have waiting := (Exchange.collect_preserves (accepted_lasting _) _).of_ok sending heard
    simp only [final, keep_accepted, waiting, List.length_append, Nat.le_refl]

theorem sendSysex_forgets (bytes : Bytes) (l : Link P) :
    (final (sendSysex bytes l)).cache.entries = [] := by
  cases sent : Exchange.sendSlices true (bytes.slices Transfer.sliceSize) l.started with
  | error e l₁ =>
    rw [sendSysex_of_error sent]
    rfl
  | ok u l₁ =>
    rw [sendSysex_of_ok sent]
    rfl

end Link

namespace Device

open MidiStorage.Eventide

variable {α β : Type}

/-- At most so many bytes are accepted in the course of the action. -/
def Sparing (n : Nat) (a : Action (Device P) α) : Prop :=
  ∀ d, (final (a d)).link.accepted.length ≤ d.link.accepted.length + n

/-- No more than so many bytes were accepted, or nothing is remembered. -/
def Forgot (n : Nat) (d d' : Device P) : Prop :=
  d'.link.accepted.length ≤ d.link.accepted.length + n ∨ d'.link.cache.entries = []

def Forgetful (n : Nat) (a : Action (Device P) α) : Prop := ∀ d, Forgot n d (final (a d))

theorem Sparing.bind {n : Nat} {a : Action (Device P) α} {f : α → Action (Device P) β}
    (first : Sparing n a) (rest : ∀ x, Sparing 0 (f x)) : Sparing n (a >>= f) := by
  intro d
  have before := first d
  cases run : a d with
  | error e d₁ =>
    rw [run] at before
    rw [bind_of_error run]
    exact before
  | ok x d₁ =>
    rw [run] at before
    rw [bind_of_ok run]
    exact Nat.le_trans (rest x d₁) before

theorem Sparing.andThen {m n : Nat} {a : Action (Device P) α} {f : α → Action (Device P) β}
    (first : Sparing m a) (rest : ∀ x, Forgetful n (f x)) : Forgetful (m + n) (a >>= f) := by
  intro d
  have before := first d
  cases run : a d with
  | error e d₁ =>
    left
    rw [run] at before
    rw [bind_of_error run]
    simp only [final] at before ⊢
    omega
  | ok x d₁ =>
    rw [run] at before
    rw [bind_of_ok run]
    rcases rest x d₁ with few | nothing
    · left
      simp only [final] at before
      omega
    · right
      exact nothing

theorem Sparing.before {n : Nat} {a : Action (Device P) α} {f : α → Action (Device P) β}
    (first : Sparing 0 a) (rest : ∀ x, Forgetful n (f x)) : Forgetful n (a >>= f) := by
  have both := first.andThen rest
  rwa [Nat.zero_add] at both

theorem Forgetful.bind {n : Nat} {a : Action (Device P) α} {f : α → Action (Device P) β}
    (first : Forgetful n a) (few : ∀ x, Sparing 0 (f x))
    (kept : ∀ x, Preserves (·.link.cache.entries = []) (f x)) : Forgetful n (a >>= f) := by
  intro d
  have before := first d
  cases run : a d with
  | error e d₁ =>
    rw [run] at before
    rw [bind_of_error run]
    exact before
  | ok x d₁ =>
    rw [run] at before
    rw [bind_of_ok run]
    rcases before with less | nothing
    · left
      exact Nat.le_trans (few x d₁) less
    · right
      exact kept x d₁ nothing

theorem sparing_ofExcept (r : Except Failure α) : Sparing 0 (Action.ofExcept r : Action (Device P) α) := by
  intro d
  cases r <;> exact Nat.le_refl _

theorem sparing_pedal : Sparing (P := P) 0 Presets.pedal := fun d => sparing_ofExcept d.pedal d

theorem sparing_onLink {n : Nat} {a : Action (Link P) α}
    (few : ∀ l, (final (a l)).accepted.length ≤ l.accepted.length + n) : Sparing n (onLink a) := by
  intro d
  rw [final_onLink]
  exact few d.link

theorem sparing_report (change : Job Float → Job Float) :
    Sparing 0 (onLink (P := P) (Link.report change)) :=
  sparing_onLink fun _ => Nat.le_refl _

variable [Port P]

theorem store_forgetful (path : String) (data : Bytes) (watched : Bool) :
    Forgetful 0 (Presets.store (P := P) path data watched) := by
  have rest (p : Pedal) (index : Nat) (message : Bytes) : Preserves (·.link.cache.entries = [])
      (onLink (Presets.listen watched) >>= fun _ => Presets.setPedal (p.refresh index message) >>= fun _ =>
        onLink (Link.check watched) : Action (Device P) Unit) :=
    (Presets.onLink_preserves (Presets.listen_preserves Link.forgotten_durable.toLasting watched)).bind fun _ =>
      (Presets.setPedal_preserves (I := (·.cache.entries = [])) _).bind fun _ =>
      Presets.onLink_preserves (Link.forgotten_durable.onRun _)
  refine sparing_pedal.before fun p => (sparing_ofExcept _).before fun id =>
    (sparing_ofExcept _).before fun index => (sparing_ofExcept _).before fun message => ?_
  intro d
  right
  have forgets := Link.transmitAll_forgets message watched d.link
  cases sent : Link.transmitAll message watched d.link with
  | error e l₁ =>
    rw [sent] at forgets
    rw [bind_of_error (onLink_of_error sent)]
    exact forgets
  | ok u l₁ =>
    rw [sent] at forgets
    rw [bind_of_ok (onLink_of_ok sent)]
    exact rest p index message _ forgets

theorem upload_forgetful (path : String) (data : Bytes) :
    Forgetful 0 (Presets.upload (P := P) path data) :=
  (sparing_report _).before fun _ => (store_forgetful path data true).bind
    (fun _ => sparing_report _)
    fun _ => Presets.onLink_preserves (Link.forgotten_durable.report _)

def readRequest (p : Pedal) : Bytes := if p.bank.isSome then [] else Eventide.bulkRequest

theorem bulkRead_sparing (p : Pedal) (watched : Bool) :
    Sparing Eventide.bulkRequest.length (Presets.bulkRead (P := P) p watched) :=
  (sparing_onLink (Link.exchange_accepted _)).bind fun _ =>
    Sparing.bind (n := 0) (fun _ => Nat.le_refl _) fun _ _ => Nat.le_refl _

theorem read_sparing (p : Pedal) (path : String) (watched : Bool) :
    Sparing (readRequest p).length (Presets.read (P := P) p path watched) := by
  intro d
  cases parsed : DevicePath.id path with
  | error e =>
    unfold Presets.read
    rw [parsed]
    exact Nat.le_add_right _ _
  | ok id =>
    cases inside : p.index id path with
    | error e =>
      unfold Presets.read
      rw [parsed, bind_of_ok (ofExcept_ok id d), inside]
      exact Nat.le_add_right _ _
    | ok index =>
      cases bank : p.bank with
      | some kept =>
        rw [Presets.read_kept parsed inside bank]
        exact Nat.le_trans (sparing_ofExcept _ d) (Nat.le_add_right _ _)
      | none =>
        have request : readRequest p = Eventide.bulkRequest := by simp [readRequest, bank]
        rw [Presets.read_unread parsed inside bank, request]
        exact (bulkRead_sparing p watched).bind (fun _ => sparing_ofExcept _) d

/-- What the deed asks the device before it has a message to send. -/
def asks (d : Device P) : Deed → Bytes
  | .rename _ _ =>
    match d.pedal with
    | .ok p => readRequest p
    | .error _ => []
  | _ => []

theorem rename_forgot (source target : String) (d : Device P) :
    Forgot (d.asks (.rename source target)).length d (final (Presets.rename source target d)) := by
  have unchanged (n : Nat) : Forgot n d d := Or.inl (Nat.le_add_right _ _)
  have pedal : Presets.pedal d = Action.ofExcept d.pedal d := rfl
  unfold Presets.rename asks
  cases parsed : DevicePath.id source with
  | error e => exact unchanged _
  | ok id =>
    rw [bind_of_ok (ofExcept_ok id d)]
    dsimp only
    split_ifs with unfit
    · exact unchanged _
    · cases known : d.pedal with
      | error e =>
        rw [known, ofExcept_error] at pedal
        rw [bind_of_error pedal]
        exact unchanged _
      | ok p =>
        rw [known, ofExcept_ok] at pedal
        rw [bind_of_ok pedal]
        exact (read_sparing p source false).andThen (n := 0) (fun _ => store_forgetful _ _ false) d

/-- The deed sends a message without waiting for its answer, and what is remembered is dropped or
not. -/
inductive Deed.Tells : (drops : Bool) → Deed → Prop
  | post (message : Bytes) : Tells true (.link (.post message))
  | sendSysex (bytes : Bytes) : Tells true (.sendSysex bytes)
  | upload (path : String) (data : Bytes) : Tells true (.upload path data)
  | rename (source target : String) : Tells true (.rename source target)
  | transfer (t : Transfer) : Tells false (.tell t)
  | programChange (channel program : UInt8) : Tells false (.programChange channel program)

theorem did_forgot {visit : Run × Deed} (tells : visit.2.Tells true) (d : Device P) :
    Forgot (d.asks visit.2).length d (d.did visit) := by
  obtain ⟨run, deed⟩ := visit
  cases tells with
  | post message =>
    right
    change (final (onLink (Link.transmitAll message false) (d.withRun run))).link.cache.entries = []
    rw [final_onLink]
    exact Link.transmitAll_forgets message false _
  | sendSysex bytes =>
    right
    change (final (onLink (Link.sendSysex bytes) (d.withRun run))).link.cache.entries = []
    rw [final_onLink]
    exact Link.sendSysex_forgets bytes _
  | upload path data => exact upload_forgetful path data (d.withRun run)
  | rename source target => exact rename_forgot source target (d.withRun run)

theorem did_cache {visit : Run × Deed} (tells : visit.2.Tells false) (d : Device P) :
    (d.did visit).link.cache = d.link.cache := by
  obtain ⟨run, deed⟩ := visit
  let I : Link P → Prop := (·.cache = d.link.cache)
  have write (bytes : Bytes) : Preserves I (Link.writeOnce bytes) := fun _ same => same
  cases tells with
  | transfer t =>
    have kept := Link.withTransfer_preserves (Exchange.transmit_preserves write) t
    exact Presets.onLink_preserves (kept.bind fun _ => Preserves.pure _ ()) (d.withRun run) rfl
  | programChange channel program =>
    have kept := (Link.send_preserves write [0xC0 ||| (channel &&& 0x0F), program &&& 0x7F]).bind
      fun _ => Preserves.pure _ ()
    exact Presets.onLink_preserves kept (d.withRun run) rfl

/-- Some message was sent without waiting for its answer, and some of it was accepted, whatever came
of it. If the link then drops what it remembers, an exchange after any further deeds is answered
from the port or with a reply heard in the meantime; otherwise the next exchange is answered as
before. -/
theorem reply_after_message (d : Device P) (visit : Run × Deed) (drops : Bool)
    (tells : visit.2.Tells drops)
    (accepted : (d.link.accepted ++ d.asks visit.2).length < (d.did visit).link.accepted.length) :
    if drops then
      ∀ (later : List (Run × Deed)) (run : Run) (t : Transfer) (reply : Bytes),
        let l := ((later.foldl did (d.did visit)).withRun run).link
        answer (Link.exchange t l) = .ok reply → l.remembered t = none ∨
          ∃ asked : Transfer, asked.raw = t.raw ∧ (d.did visit).Heard later asked reply
    else
      ∀ (run : Run) (t : Transfer) (reply : Bytes), d.link.remembered t = some reply →
        let l := ((d.did visit).withRun run).link
        Link.exchange t l = .ok reply l := by
  cases drops with
  | true =>
    intro later run t reply l answered
    cases known : l.remembered t with
    | none =>
      left
      rfl
    | some kept =>
      right
      rw [Link.exchange_of_remembered known] at answered
      cases answered
      rcases did_forgot tells d with few | nothing
      · rw [List.length_append] at accepted
        omega
      · rcases remembers (d.did visit) later _ (Link.mem_of_remembered known) with old | heard
        · rw [nothing] at old
          cases old
        · obtain ⟨asked, -, request, heard⟩ := heard
          exact ⟨asked, request, heard⟩
  | false =>
    intro run t reply known l
    have same : l.remembered t = some reply := by
      rw [← known]
      unfold Link.remembered
      change (if t.cacheable && !t.raw.isEmpty then (d.did visit).link.cache.get? t.raw else none) = _
      rw [did_cache tells d]
    exact Link.exchange_of_remembered same

def changing : VirtualPort where
  name := "virtual"
  respond earlier _ := { parts := [[0xF0, if earlier.isEmpty then 1 else 2, 0xF7]] }

def question : Transfer := { raw := [0xF0, 16, 0xF7], timeout := 100 }

def asking : Run × Deed := ({}, .link (.exchange question))

def acquainted : Device VirtualPort :=
  [({}, .link .enable), asking].foldl did { link := .ofPort "virtual:0" changing Timing.standard }

def selecting : Run × Deed := ({}, .programChange 0 5)

def posting : Run × Deed := ({}, .link (.post [0xF0, 17, 0xF7]))

/-- The first reply outlives a program change, but not a message that is posted. -/
theorem first_reply_kept :
    let l := ((acquainted.did selecting).withRun {}).link
    Link.exchange question l = .ok [0xF0, 1, 0xF7] l ∧
      answer (Link.exchange { question with cacheable := false } l) = .ok [0xF0, 2, 0xF7] ∧
      ∃ asked : Transfer, asked.raw = question.raw ∧
        (acquainted.did posting).Heard [asking] asked [0xF0, 2, 0xF7] := by
  intro l
  have first : acquainted.link.remembered question = some [0xF0, 1, 0xF7] := by decide +kernel
  have selected : (acquainted.link.accepted ++ acquainted.asks selecting.2).length <
      (acquainted.did selecting).link.accepted.length := by decide +kernel
  have posted : (acquainted.link.accepted ++ acquainted.asks posting.2).length <
      (acquainted.did posting).link.accepted.length := by decide +kernel
  have again : answer (Link.exchange question
      (([asking].foldl did (acquainted.did posting)).withRun {}).link) = .ok [0xF0, 2, 0xF7] := by
    decide +kernel
  have known : (([asking].foldl did (acquainted.did posting)).withRun {}).link.remembered question ≠ none := by
    decide +kernel
  refine ⟨?_, by decide +kernel, ?_⟩
  · have kept := reply_after_message acquainted selecting false (.programChange 0 5) selected
    rw [if_neg Bool.false_ne_true] at kept
    exact kept {} question _ first
  · have dropped := reply_after_message acquainted posting true (.post _) posted
    rw [if_pos rfl] at dropped
    exact (dropped [asking] {} question _ again).resolve_left known

end Device

end MidiStorage
