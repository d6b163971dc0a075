import MidiStorage.Port.Scripted
import MidiStorage.Proofs.Cancelling.Final
import MidiStorage.Proofs.Transfer.Waiting

namespace MidiStorage

open MidiStorage.Action

variable {P : Type} [Port P]

namespace Exchange

theorem sendSlices_append (watched : Bool) (front back : List Bytes) :
    sendSlices (P := P) watched (front ++ back) =
      sendSlices watched front >>= fun _ => sendSlices watched back := by
  induction front with
  | nil => simp [sendSlices]
  | cons slice rest ih => simp [sendSlices, ih, bind_assoc]

theorem sendSlices_concat_ok {watched : Bool} {front : List Bytes} {last : Bytes} {l l' : Link P} :
    sendSlices watched (front ++ [last]) l = .ok () l' ↔
      ∃ l₁ n, sendSlices watched front l = .ok () l₁ ∧ ¬ l₁.Stopped watched ∧
        Link.send last l₁ = .ok n l' := by
  rw [sendSlices_append, bind_eq_ok]
  constructor
  · rintro ⟨_, l₁, sent, rest⟩
    have going : ¬ l₁.Stopped watched := by
      intro stopped
      rw [sendSlices, bind_of_error (Link.check_of_stopped stopped)] at rest
      cases rest
    rw [sendSlices, bind_of_ok (Link.check_of_not_stopped going), bind_eq_ok] at rest
    obtain ⟨n, l₂, write, ended⟩ := rest
    cases ended
    exact ⟨l₁, n, sent, going, write⟩
  · rintro ⟨l₁, n, sent, going, write⟩
    refine ⟨(), l₁, sent, ?_⟩
    rw [sendSlices, bind_of_ok (Link.check_of_not_stopped going), bind_of_ok write]
    rfl

/-- All the bytes were sent, but by then the job was cancelled: there was no slice to look before,
or it was still active at the look before the last one. -/
inductive SentLate (bytes : Bytes) (l : Link P) : Link P → Prop
  | nothing (empty : bytes = []) (inactive : l.run.job.active = false) : SentLate bytes l l
  | last {front : List Bytes} {last : Bytes} {n : Nat} {l₁ l₂ : Link P}
    (slices : bytes.slices Transfer.sliceSize = front ++ [last])
    (sent : sendSlices true front l = .ok () l₁) (active : l₁.run.job.active = true)
    (write : Link.send last l₁ = .ok n l₂) (inactive : l₂.run.job.active = false) :
    SentLate bytes l l₂

theorem sentLate_iff {bytes : Bytes} {l l' : Link P} :
    sendSlices true (bytes.slices Transfer.sliceSize) l = .ok () l' ∧ l'.run.job.active = false ↔
      SentLate bytes l l' := by
  constructor
  · rintro ⟨sent, inactive⟩
    rcases List.eq_nil_or_concat (bytes.slices Transfer.sliceSize) with none | ⟨front, last, slices⟩
    · have empty := Bytes.slices_flatten (by decide : 0 < Transfer.sliceSize) bytes
      rw [none] at sent empty
      cases sent
      exact .nothing empty.symm inactive
    · rw [List.concat_eq_append] at slices
      rw [slices, sendSlices_concat_ok] at sent
      obtain ⟨l₁, n, front, going, write⟩ := sent
      have active : l₁.run.job.active = true := by
        cases active : l₁.run.job.active with
        | true => rfl
        | false => exact absurd ⟨rfl, active⟩ going
      exact .last slices front active write inactive
  · intro late
    cases late with
    | nothing empty inactive =>
      subst empty
      exact ⟨rfl, inactive⟩
    | last slices sent active write inactive =>
      refine ⟨?_, inactive⟩
      rw [slices, sendSlices_concat_ok]
      refine ⟨_, _, sent, ?_, write⟩
      rintro ⟨-, stopped⟩
      rw [active] at stopped
      cases stopped

/-- A reply was heard, but by then the job was cancelled: it was still active at the look that began
the last round. -/
structure HeardLate (t : Transfer) (l : Link P) (bytes : Bytes) (l' : Link P) : Prop where
  last : ∃ start l₀ since got l₁, Link.now l = .ok start l₀ ∧ Reaches t start [] l₀ since got l₁ ∧
    l₁.run.job.active = true ∧ attempt t since got l₁ = .ok (.done bytes) l'
  inactive : l'.run.job.active = false

theorem heardLate_iff [LawfulPort P] {t : Transfer} (watched : t.watched = true) {bytes : Bytes}
    {l l' : Link P} : collect t l = .ok bytes l' ∧ l'.run.job.active = false ↔
      HeardLate t l bytes l' := by
  obtain ⟨start, l₀, now, waits⟩ := collect_waits t l
  constructor
  · rintro ⟨heard, inactive⟩
    rw [heard, waits_ok_iff] at waits
    obtain ⟨since, got, l₁, reaches, ended⟩ := waits
    obtain ⟨going, ended⟩ := oneRound_eq_ok.mp ended
    refine ⟨⟨start, l₀, since, got, l₁, now, reaches, ?_, ended⟩, inactive⟩
    cases active : l₁.run.job.active with
    | true => rfl
    | false => exact absurd ⟨watched, active⟩ going
  · rintro ⟨⟨start', l₀', since, got, l₁, now', reaches, active, ended⟩, inactive⟩
    rw [now] at now'
    cases now'
    have going : ¬ l₁.Stopped t.watched := by
      rintro ⟨-, stopped⟩
      rw [active] at stopped
      cases stopped
    have heard := reaches.waits (.done (oneRound_eq_ok.mpr ⟨going, ended⟩))
    exact ⟨waits.unique heard, inactive⟩

end Exchange

namespace Link

/-- How a call of a job that may get cancelled meanwhile ends. It looks at the job in some states,
comes late for cancellation with some results, and reports its job as done in some states. -/
structure Looking {α : Type} (l : Link P) (looks : Link P → Prop) (late done : α → Link P → Prop)
    (result : EStateM.Result Failure (Link P) α) : Prop where
  seen (l₁ : Link P) : looks l₁ → l₁.run.job.active = false → ∃ l', result = .error .cancelled l'
  /-- The success of a cancelled job is one that came late, or was told as the job was cancelled. -/
  missed (x : α) (l' : Link P) : (result = .ok x l' ∧ l'.run.job.active = false) ↔
    ∃ l₁, (late x l₁ ∨ done x l₁ ∧ l₁.run.interrupts 0 = true) ∧ l' = l₁.finished
  /-- A failure leaves the job as it began, or cancelled, and reports no progress. -/
  failed (e : Failure) (l' : Link P) : result = .error e l' → Serves l.started.run.job l'

def SendLooks (slices : List Bytes) (l l₁ : Link P) : Prop :=
  ∃ front back, slices = front ++ back ∧ back ≠ [] ∧ Exchange.sendSlices true front l = .ok () l₁

theorem sendSlices_of_looks {slices : List Bytes} {l l₁ : Link P} (looks : SendLooks slices l l₁)
    (inactive : l₁.run.job.active = false) :
    Exchange.sendSlices true slices l = .error .cancelled l₁ := by
  obtain ⟨front, back, rfl, some, sent⟩ := looks
  obtain ⟨slice, rest, rfl⟩ := List.exists_cons_of_ne_nil some
  rw [Exchange.sendSlices_append, bind_of_ok sent, Exchange.sendSlices,
    bind_of_error (check_of_stopped ⟨rfl, inactive⟩)]

/-- The state in which a send of these bytes reports its job as done. -/
def SendDone (bytes : Bytes) (l l₁ : Link P) : Prop :=
  ∃ l₂, Exchange.sendSlices true (bytes.slices Transfer.sliceSize) l = .ok () l₂ ∧
    l₁ = l₂.unremembering

def SendMissed (bytes : Bytes) (l l₁ : Link P) : Prop :=
  ∃ l₂, Exchange.SentLate bytes l l₂ ∧ l₁ = l₂.unremembering

theorem sendDone_inactive_iff {bytes : Bytes} {l l₁ : Link P} :
    SendDone bytes l l₁ ∧ l₁.run.job.active = false ↔ SendMissed bytes l l₁ := by
  constructor
  · rintro ⟨⟨l₂, sent, rfl⟩, inactive⟩
    exact ⟨l₂, Exchange.sentLate_iff.mp ⟨sent, inactive⟩, rfl⟩
  · rintro ⟨l₂, late, rfl⟩
    obtain ⟨sent, inactive⟩ := Exchange.sentLate_iff.mpr late
    exact ⟨⟨l₂, sent, rfl⟩, inactive⟩

theorem sendSysex_eq_ok {bytes : Bytes} {l l' : Link P} :
    sendSysex bytes l = .ok () l' ↔ ∃ l₁, SendDone bytes l.started l₁ ∧ l' = l₁.finished := by
  constructor
  · intro run
    cases sent : Exchange.sendSlices true (bytes.slices Transfer.sliceSize) l.started with
    | error e l₂ =>
      rw [sendSysex_of_error sent] at run
      cases run
    | ok _ l₂ =>
      rw [sendSysex_of_ok sent] at run
      cases run
      exact ⟨_, ⟨l₂, sent, rfl⟩, rfl⟩
  · rintro ⟨_, ⟨l₂, sent, rfl⟩, rfl⟩
    exact sendSysex_of_ok sent

theorem sendSysex_looking (bytes : Bytes) (l : Link P) :
    Looking l (SendLooks (bytes.slices Transfer.sliceSize) l.started)
      (fun _ l₁ => SendMissed bytes l.started l₁) (fun _ l₁ => SendDone bytes l.started l₁)
      (sendSysex bytes l) := by
  constructor
  · intro l₁ looks inactive
    exact ⟨_, sendSysex_of_error (sendSlices_of_looks looks inactive)⟩
  · exact missed_iff (fun _ _ => sendSysex_eq_ok) fun _ _ => sendDone_inactive_iff
  · intro e l' run
    cases sent : Exchange.sendSlices true (bytes.slices Transfer.sliceSize) l.started with
    | error e l₂ =>
      rw [sendSysex_of_error sent] at run
      cases run
      have serves : Serves l.started.run.job l₂ :=
        (serves_sendSlices _ _ _).of_error (Or.inl rfl) sent
      exact serves
    | ok _ l₂ =>
      rw [sendSysex_of_ok sent] at run
      cases run

def WaitLooks (t : Transfer) (l l₁ : Link P) : Prop :=
  ∃ start l₀ since got, now l = .ok start l₀ ∧ Exchange.Reaches t start [] l₀ since got l₁

theorem receiveSysex_eq_ok {l l' : Link P} {bytes : Bytes} : receiveSysex l = .ok bytes l' ↔
    ∃ l₁, Exchange.collect l.dump l.started = .ok bytes l₁ ∧ l' = l₁.finished := by
  constructor
  · intro run
    cases heard : Exchange.collect l.dump l.started with
    | error e l₂ =>
      rw [receiveSysex_of_error heard] at run
      cases run
    | ok reply l₂ =>
      rw [receiveSysex_of_ok heard] at run
      cases run
      exact ⟨l₂, rfl, rfl⟩
  · rintro ⟨l₂, heard, rfl⟩
    exact receiveSysex_of_ok heard

variable [LawfulPort P]

theorem collect_of_looks {t : Transfer} (watched : t.watched = true) {l l₁ : Link P}
    (looks : WaitLooks t l l₁) (inactive : l₁.run.job.active = false) :
    Exchange.collect t l = .error .cancelled l₁ := by
  obtain ⟨start, l₀, now, waits⟩ := Exchange.collect_waits t l
  obtain ⟨start', l₀', since, got, now', reaches⟩ := looks
  rw [now] at now'
  cases now'
  have stopped := Exchange.oneRound_of_stopped ⟨watched, inactive⟩ since got
  exact waits.unique (reaches.waits (.failed stopped))

theorem receiveSysex_looking (l : Link P) :
    Looking l (WaitLooks l.dump l.started) (Exchange.HeardLate l.dump l.started)
      (fun bytes l₁ => Exchange.collect l.dump l.started = .ok bytes l₁) (receiveSysex l) := by
  constructor
  · intro l₁ looks inactive
    exact ⟨_, receiveSysex_of_error (collect_of_looks rfl looks inactive)⟩
  · exact missed_iff (fun _ _ => receiveSysex_eq_ok) fun _ _ => Exchange.heardLate_iff rfl
  · intro e l' run
    cases heard : Exchange.collect l.dump l.started with
    | error e l₂ =>
      rw [receiveSysex_of_error heard] at run
      cases run
      exact (serves_collect _ _).of_error (Or.inl rfl) heard
    | ok reply l₂ =>
      rw [receiveSysex_of_ok heard] at run
      cases run

/-- Of a job that gets cancelled, a call ends as cancelled if any of its looks finds that out, and
then reports no progress. Otherwise it may end well, and reports the job as done: just when the job
was cancelled after the last look, or when there was none. -/
theorem cancelled_unless_late (l : Link P) (bytes : Bytes) :
    Looking l (SendLooks (bytes.slices Transfer.sliceSize) l.started)
      (fun _ l₁ => SendMissed bytes l.started l₁) (fun _ l₁ => SendDone bytes l.started l₁)
      (sendSysex bytes l) ∧
    Looking l (WaitLooks l.dump l.started) (Exchange.HeardLate l.dump l.started)
      (fun bytes l₁ => Exchange.collect l.dump l.started = .ok bytes l₁) (receiveSysex l) :=
  ⟨sendSysex_looking bytes l, receiveSysex_looking l⟩

/-- A port that cancels the job during its first write and during its second read. -/
def cancellingLink : Link ScriptedPort :=
  ofPort "scripted:0"
    { name := "scripted", reads := [.bytes [0xF0, 1, 0xF7], .cancel], writes := [.cancel] }
    { Timing.standard with idleTimeout := 0 }

/-- A listener that cancels the job when it hears of its completion. -/
def distractedLink : Link ScriptedPort :=
  { ofPort "scripted:0" { name := "scripted" } Timing.standard with run := { hearings := [false, true] } }

theorem cancellingLink_late :
    let l := cancellingLink
    (∃ l₁ l₂, sendSysex [0xF0, 16, 0xF7] l = .ok () l₁ ∧ l₁.run.job.active = false ∧
      Exchange.SentLate [0xF0, 16, 0xF7] l.started l₂) ∧
    (∃ l₁ l₂, receiveSysex l = .ok [0xF0, 1, 0xF7] l₁ ∧ l₁.run.job.active = false ∧
      Exchange.HeardLate l.dump l.started [0xF0, 1, 0xF7] l₂) ∧
    (∃ l', sendSysex [0xF0, 16, 0xF7] (final (receiveSysex l)) = .error .cancelled l') ∧
    ∃ l₁ l₂, sendSysex [0xF0, 16, 0xF7] distractedLink = .ok () l₁ ∧ l₁.run.job.active = false ∧
      SendDone [0xF0, 16, 0xF7] distractedLink.started l₂ ∧ l₂.run.job.active = true := by
  intro l
  let slices := Bytes.slices Transfer.sliceSize [0xF0, 16, 0xF7]
  have sent : Exchange.sendSlices true slices l.started =
      .ok () (final (Exchange.sendSlices true slices l.started)) := eq_ok_of_answer (by decide +kernel)
  have heard : Exchange.collect l.dump l.started =
      .ok [0xF0, 1, 0xF7] (final (Exchange.collect l.dump l.started)) :=
    eq_ok_of_answer (by decide +kernel)
  have late := Exchange.sentLate_iff.mp ⟨sent, by decide +kernel⟩
  have lateReply := (Exchange.heardLate_iff rfl).mp ⟨heard, by decide +kernel⟩
  obtain ⟨sending, receiving⟩ := cancelled_unless_late l [0xF0, 16, 0xF7]
  obtain ⟨sending', -⟩ := cancelled_unless_late distractedLink [0xF0, 16, 0xF7]
  have missed := (sending.missed () _).mpr ⟨_, Or.inl ⟨_, late, rfl⟩, rfl⟩
  have missedReply := (receiving.missed _ _).mpr ⟨_, Or.inl lateReply, rfl⟩
  refine ⟨⟨_, _, missed.1, missed.2, late⟩, ⟨_, _, missedReply.1, missedReply.2, lateReply⟩, ?_, ?_⟩
  · -- a job that was cancelled before the call is found out at its first look
    obtain ⟨next, -⟩ := cancelled_unless_late (final (receiveSysex l)) [0xF0, 16, 0xF7]
    have looks : SendLooks slices (final (receiveSysex l)).started (final (receiveSysex l)).started :=
      ⟨[], _, rfl, by decide, rfl⟩
    refine next.seen _ looks (started_inactive ?_)
    rw [missedReply.1]
    exact missedReply.2
  · have finishing : SendDone [0xF0, 16, 0xF7] distractedLink.started _ :=
      ⟨final (Exchange.sendSlices true slices distractedLink.started),
        eq_ok_of_answer (by decide +kernel), rfl⟩
    have told := (sending'.missed () _).mpr ⟨_, Or.inr ⟨finishing, by decide +kernel⟩, rfl⟩
    exact ⟨_, _, told.1, told.2, finishing, by decide +kernel⟩

end Link

end MidiStorage
