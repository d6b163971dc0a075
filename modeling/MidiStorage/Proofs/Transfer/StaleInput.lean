import MidiStorage.Proofs.Cache.Deeds
import MidiStorage.Proofs.Framing.Balance
import MidiStorage.Proofs.Transfer.LostInput
import MidiStorage.Proofs.Transfer.Ready

namespace MidiStorage.Link

open MidiStorage.Action

variable {P : Type}

/-- Messages in a row that a new framer completes from the input, or from what is left of it where
some of it was lost. -/
def HeardIn (input bytes : Bytes) : Prop :=
  ∃ heard ms, heard.Sublist input ∧ ms <:+: Framer.messages heard ∧ bytes = ms.flatten

variable {input input' heard bytes : Bytes} {taken : List Bytes}

theorem HeardIn.mono (heardIn : HeardIn input bytes) (longer : input <+: input') :
    HeardIn input' bytes := by
  obtain ⟨heard, ms, part, inside, joined⟩ := heardIn
  exact ⟨heard, ms, part.trans longer.sublist, inside, joined⟩

theorem HeardIn.sublist (heardIn : HeardIn input bytes) : bytes.Sublist input := by
  obtain ⟨heard, ms, part, ⟨before, after, split⟩, rfl⟩ := heardIn
  have inside : ms.flatten <:+: (Framer.messages heard).flatten :=
    ⟨before.flatten, after.flatten, by rw [← split, List.flatten_append, List.flatten_append]⟩
  exact inside.sublist.trans ((Framer.messages_flatten_sublist heard).trans part)

def Hearing.From (input bytes : Bytes) : Hearing → Prop
  | .messages _ | .reply _ => HeardIn input bytes
  | .raw _ _ => bytes <:+ input

theorem Hearing.From.sublist {call : Hearing} (origin : call.From input bytes) : bytes.Sublist input := by
  cases call with
  | messages t => exact HeardIn.sublist origin
  | reply t => exact HeardIn.sublist origin
  | raw timeout watched => exact List.IsSuffix.sublist origin

/-- Since `l₀` the port delivered this input. The framer took in no more than this part of it, and
with the messages taken since put back it is as a new one is then. -/
structure Since (l₀ : Link P) (input heard : Bytes) (taken : List Bytes) (l : Link P) : Prop where
  delivered : l.delivered = l₀.delivered ++ input
  part : heard.Sublist input
  framer : Framer.putBack taken l.framer = Framer.push {} heard

/-- Since `l₀` nothing else got into the framer or the memory but what came from later input. -/
def Unmixed (l₀ l : Link P) : Prop :=
  ∃ input heard taken, Since l₀ input heard taken l ∧
    ∀ entry ∈ l.cache.entries, entry ∈ l₀.cache.entries ∨ HeardIn input entry.2

variable {l₀ l l' : Link P}

theorem unmixed_self (reset : l.framer = {}) : Unmixed l l := by
  refine ⟨[], [], [], ⟨(List.append_nil _).symm, List.Sublist.refl _, ?_⟩, fun entry old => .inl old⟩
  rw [Framer.putBack_nil, reset, Framer.push_nil]

theorem Unmixed.apart (unmixed : Unmixed l₀ l) (delivered : l'.delivered = l.delivered)
    (framer : l'.framer = l.framer) (memory : l'.cache.entries ⊆ l.cache.entries) : Unmixed l₀ l' := by
  obtain ⟨input, heard, taken, since, before⟩ := unmixed
  refine ⟨input, heard, taken, ⟨delivered.trans since.delivered, since.part, ?_⟩, ?_⟩
  · rw [framer, since.framer]
  · exact fun entry member => before entry (memory member)

theorem Since.account (since : Since l₀ input heard taken l) {framed returned lost : Bytes}
    {more : List Bytes} (account : Account l framed more returned lost l') :
    Since l₀ (input ++ (framed ++ returned ++ lost)) (heard ++ framed) (taken ++ more) l' where
  delivered := by
    rw [account.delivered, since.delivered]
    simp only [List.append_assoc]
  part := by
    rw [List.append_assoc framed]
    exact since.part.append (List.sublist_append_left framed _)
  framer := by
    have both : Framer.putBack (taken ++ more) l'.framer =
        Framer.putBack taken (Framer.putBack more l'.framer) := by
      simp only [Framer.putBack, List.append_assoc]
    rw [both, account.framer, ← Framer.putBack_push, since.framer, Framer.push_append]

theorem Since.heardIn {more : List Bytes} (since : Since l₀ input heard (taken ++ more) l) :
    HeardIn input more.flatten := by
  refine ⟨heard, more, since.part, ⟨taken, l.framer.queue, ?_⟩, rfl⟩
  rw [Framer.messages, ← since.framer]
  rfl

section Calls

variable [Port P]

theorem hearing_remembers (call : Hearing) (l : Link P) (entry : Bytes × Bytes)
    (member : entry ∈ (final (call.action l)).cache.entries) :
    entry ∈ l.cache.entries ∨ ∃ t, call = .reply t ∧ l.remembered t = none ∧
      answer (call.action l) = .ok entry.2 := by
  have lasting := (remembers_durable (P := P) (· ∈ l.cache.entries)).toLasting
  have before : ∀ entry ∈ l.cache.entries, entry ∈ l.cache.entries := fun _ old => old
  cases call with
  | messages t => exact .inl (lasting.hear t l before entry member)
  | raw timeout watched => exact .inl (lasting.receive timeout watched l before entry member)
  | reply t =>
    rcases exchange_remembers t l entry member with old | ⟨-, -, unknown, answered⟩
    · exact .inl old
    · exact .inr ⟨t, rfl, unknown, answered⟩

variable [LawfulPort P]

theorem Since.hear (since : Since l₀ input heard taken l) (call : Hearing) :
    ∃ input' heard' taken', input <+: input' ∧ Since l₀ input' heard' taken' (final (call.action l)) ∧
      ∀ bytes, answer (call.action l) = .ok bytes →
        call.From input' bytes ∨ ∃ t, call = .reply t ∧ l.remembered t = some bytes := by
  have spends : call.Spends l (call.action l) := by
    cases call with
    | messages t => exact messages_spends t l
    | reply t => exact reply_spends t l
    | raw timeout watched => exact raw_spends timeout watched l
  generalize call.action l = result at spends ⊢
  cases spends with
  | broke account before failed gives =>
    exact ⟨_, _, _, List.prefix_append _ _, since.account account, fun _ answered => by cases answered⟩
  | kept account gives sound =>
    have since' := since.account account
    refine ⟨_, _, _, List.prefix_append _ _, since', ?_⟩
    intro bytes answered
    rw [answered] at gives
    cases call with
    | messages t =>
      obtain ⟨-, rfl⟩ := gives
      exact .inl since'.heardIn
    | reply t =>
      obtain ⟨-, rfl | ⟨known, -, -⟩⟩ := gives
      · exact .inl since'.heardIn
      · exact .inr ⟨t, rfl, known⟩
    | raw timeout watched =>
      obtain ⟨rfl, rfl, rfl⟩ := gives
      left
      rw [List.nil_append, List.append_nil]
      exact List.suffix_append _ _

theorem Unmixed.hear (unmixed : Unmixed l₀ l) (call : Hearing) :
    Unmixed l₀ (final (call.action l)) := by
  obtain ⟨input, heard, taken, since, memory⟩ := unmixed
  obtain ⟨input', heard', taken', longer, since', gives⟩ := since.hear call
  refine ⟨input', heard', taken', since', ?_⟩
  intro entry member
  rcases hearing_remembers call l entry member with old | ⟨t, rfl, unknown, answered⟩
  · exact (memory entry old).imp_right (·.mono longer)
  · rcases gives _ answered with origin | ⟨t', same, known⟩
    · exact .inr origin
    · cases same
      rw [unknown] at known
      cases known

theorem Unmixed.returned (unmixed : Unmixed l₀ l) {call : Hearing} (ran : call.action l = .ok bytes l') :
    ∃ input, l'.delivered = l₀.delivered ++ input ∧
      (call.From input bytes ∨
        ∃ t, call = .reply t ∧ l.remembered t = some bytes ∧ (t.raw, bytes) ∈ l₀.cache.entries) := by
  obtain ⟨input, heard, taken, since, memory⟩ := unmixed
  obtain ⟨input', heard', taken', longer, since', gives⟩ := since.hear call
  rw [ran] at since' gives
  refine ⟨input', since'.delivered, ?_⟩
  rcases gives bytes rfl with origin | ⟨t, rfl, known⟩
  · exact .inl origin
  · rcases memory _ (mem_of_remembered known) with old | heardIn
    · exact .inr ⟨t, rfl, known, old⟩
    · exact .inl (heardIn.mono longer)

end Calls

inductive Work
  | hear (call : Hearing)
  | tell (t : Transfer)
  | transmit (message : Bytes) (watched : Bool)
  | send (bytes : Bytes)
  | drain
  | pause (watched : Bool) (duration : Nat)
  | enable
  | disable
  | clear

section Work

variable [Port P]

def Work.action : Work → Action (Link P) Unit
  | .hear call => do let _ ← call.action
  | .tell t => do let _ ← withTransfer t Exchange.transmit
  | .transmit message watched => transmitAll message watched
  | .send bytes => do let _ ← Link.send bytes
  | .drain => Link.drain
  | .pause watched duration => Link.pause watched duration
  | .enable => modifyCache ReplyCache.enable
  | .disable => modifyCache ReplyCache.disable
  | .clear => modifyCache ReplyCache.clear

def worked (l : Link P) (visit : Run × Work) : Link P :=
  final (visit.2.action { l with run := visit.1 })

theorem Unmixed.drain (unmixed : Unmixed l₀ l) : Unmixed l₀ (final (drain l)) := by
  obtain ⟨input, heard, taken, since, memory⟩ := unmixed
  -- after the reset nothing has been heard, and what is read is not heard either
  let I (m : Link P) : Prop := ∃ input, m.delivered = l₀.delivered ++ input ∧ m.framer = {} ∧
    ∀ entry ∈ m.cache.entries, entry ∈ l₀.cache.entries ∨ HeardIn input entry.2
  have read : Preserves I readOnce := by
    rintro m ⟨input, delivered, framer, memory⟩
    refine ⟨input ++ brought (Port.read m.port).result, ?_, framer, ?_⟩
    · rw [readOnce_delivered, delivered, List.append_assoc]
    · intro entry member
      exact (memory entry member).imp_right (·.mono (List.prefix_append _ _))
  have reset : I { l with framer := l.framer.reset } := ⟨input, since.delivered, rfl, memory⟩
  obtain ⟨input', delivered, framer, memory'⟩ := final_drain reset (fun _ _ same => same) read
  refine ⟨input', [], [], ⟨delivered, List.nil_sublist _, ?_⟩, memory'⟩
  rw [Framer.putBack_nil, framer, Framer.push_nil]

theorem worked_unmixed [LawfulPort P] (unmixed : Unmixed l₀ l) (visit : Run × Work) :
    Unmixed l₀ (l.worked visit) := by
  obtain ⟨run, work⟩ := visit
  have write (bytes : Bytes) : Preserves (Unmixed l₀) (writeOnce bytes) :=
    fun l before => before.apart (writeOnce_delivered bytes l) rfl (List.Subset.refl _)
  have forgetful (f : ReplyCache → ReplyCache) (less : ∀ c, (f c).entries ⊆ c.entries) :
      Preserves (Unmixed l₀) (modifyCache (P := P) f) :=
    Preserves.modify fun l before => before.apart rfl rfl (less l.cache)
  have telling (t : Transfer) : Preserves (Unmixed l₀) (withTransfer t Exchange.transmit) :=
    withTransfer_preserves (Exchange.transmit_preserves write) t
  have preserves : Preserves (Unmixed l₀) work.action := by
    cases work with
    | hear call => exact Preserves.bind (fun _ before => before.hear call) fun _ => .pure _ ()
    | tell t => exact (telling t).bind fun _ => .pure _ ()
    | transmit message watched =>
      exact (Preserves.get _).bind fun _ => (telling _).outcome.bind fun _ =>
        (forgetful _ fun _ => List.nil_subset _).bind fun _ => (Preserves.ofExcept _ _).bind fun _ =>
        .pure _ ()
    | send bytes => exact (send_preserves write bytes).bind fun _ => .pure _ ()
    | drain => exact fun _ before => before.drain
    | pause watched duration =>
      have waits (duration interval : Nat) :
          Preserves (Unmixed l₀) (onRun (P := P) (Run.pause watched duration interval)) :=
        Preserves.apart (fun _ _ before => before.apart rfl rfl (List.Subset.refl _)) _
      refine (Preserves.get _).bind fun _ => (waits _ _).bind fun _ => Preserves.modify ?_
      exact fun l before => before.apart (by simp [delivered]) rfl (List.Subset.refl _)
    | enable => exact forgetful _ fun _ => List.Subset.refl _
    | disable => exact forgetful _ fun _ => List.nil_subset _
    | clear => exact forgetful _ fun _ => List.nil_subset _
  exact preserves _ (unmixed.apart rfl rfl (List.Subset.refl _))

theorem unmixed_after [LawfulPort P] (unmixed : Unmixed l₀ l) (visits : List (Run × Work)) :
    Unmixed l₀ (visits.foldl worked l) := by
  induction visits generalizing l with
  | nil => exact unmixed
  | cons visit visits ih => exact ih (worked_unmixed unmixed visit)

end Work

def firstLooks : Action Run (Nat × Nat) := do
  let start ← Run.now
  let quietSince ← Run.now
  let time ← Run.now
  let later ← Run.now
  pure (time - quietSince, later - start)

/-- The clock lets a drain get to its first poll. -/
def LetsPoll (l : Link P) : Prop :=
  ∃ silence passed, answer (firstLooks l.run) = .ok (silence, passed) ∧
    silence < l.timing.restTime ∧ passed < l.timing.dumpTimeout

section Looks

variable {start quietSince time later : Nat} {r₁ r₂ r₃ r₄ : Run}

theorem letsPoll_iff (first : Run.now l.run = .ok start r₁) (second : Run.now r₁ = .ok quietSince r₂)
    (third : Run.now r₂ = .ok time r₃) (fourth : Run.now r₃ = .ok later r₄) :
    LetsPoll l ↔ time - quietSince < l.timing.restTime ∧ later - start < l.timing.dumpTimeout := by
  have seen : firstLooks l.run = .ok (time - quietSince, later - start) r₄ := by
    unfold firstLooks
    rw [bind_of_ok first, bind_of_ok second, bind_of_ok third, bind_of_ok fourth]
    rfl
  unfold LetsPoll
  rw [seen]
  simp [answer]

theorem now_reset (l : Link P) (first : Run.now r₁ = .ok time r₂) :
    now { l with framer := l.framer.reset, run := r₁ } =
      .ok time { l with framer := l.framer.reset, run := r₂ } :=
  onRun_of_ok first

theorem drain_begins [Port P] (first : Run.now l.run = .ok start r₁)
    (second : Run.now r₁ = .ok quietSince r₂) :
    ∃ rounds, drain l =
      drainRounds start (rounds + 1) quietSince { l with framer := l.framer.reset, run := r₂ } := by
  have some : 0 < r₂.clock.rounds l.timing.dumpTimeout + Port.readsLeft l.port := by
    unfold Clock.rounds Clock.sleeps
    omega
  obtain ⟨rounds, count⟩ := Nat.exists_eq_add_one.mpr some
  refine ⟨rounds, ?_⟩
  unfold drain
  rw [bind_of_ok (modify_apply _ _), bind_of_ok (now_reset l first),
    bind_of_ok (now_reset l second), bind_of_ok (get_apply _), ← count]

end Looks

theorem onRun_port {α : Type} (port : P) (a : Action Run α) :
    Preserves (fun l : Link P => l.port = port) (onRun a) := by
  intro l same
  rw [onRun, final_within]
  exact same

theorem drainRounds_emptied {port : VirtualPort} (nothing : port.pending = []) (start rounds quietSince : Nat) :
    Preserves (fun l : Link VirtualPort => l.port = port) (drainRounds start rounds quietSince) := by
  refine drainRounds_preserves (fun _ _ same => same) ?_ start rounds quietSince
  rintro l rfl
  obtain ⟨journal, once⟩ := readOnce_pending l
  rw [once, final, nothing, List.drop_nil, ← nothing]

theorem drain_port (l : Link VirtualPort) :
    (LetsPoll l → (final (drain l)).port = { l.port with pending := [] }) ∧
      (¬ LetsPoll l → (final (drain l)).port = l.port) := by
  obtain ⟨start, r₁, first⟩ := Run.now_ok l.run
  obtain ⟨quietSince, r₂, second⟩ := Run.now_ok r₁
  obtain ⟨time, r₃, third⟩ := Run.now_ok r₂
  obtain ⟨later, r₄, fourth⟩ := Run.now_ok r₃
  obtain ⟨rounds, begun⟩ := drain_begins first second
  rw [letsPoll_iff first second third fourth, begun, drainRounds, bind_of_ok (get_apply _),
    bind_of_ok (now_reset l third)]
  dsimp only
  split_ifs with rested
  · exact ⟨fun polls => by omega, fun _ => rfl⟩
  rw [bind_of_ok (now_reset l fourth)]
  split_ifs with late
  · exact ⟨fun polls => by omega, fun _ => rfl⟩
  refine ⟨fun _ => ?_, fun stays => by omega⟩
  obtain ⟨journal, polled⟩ := poll_pending { l with framer := l.framer.reset, run := r₄ }
  rw [bind_of_ok (outcome_of_ok polled)]
  have goesOn := @drainRounds_emptied { l.port with pending := [] } rfl start rounds
  cases l.port.pending with
  | nil => exact (onRun_port _ _).bind (fun _ => goesOn _) _ rfl
  | cons b bytes => exact (onRun_port _ _).bind (fun _ => goesOn _) _ rfl

theorem drain_cache [Port P] (l : Link P) : (final (drain l)).cache = l.cache :=
  final_drain (I := fun m => m.cache = l.cache) rfl (fun _ _ same => same) fun _ same => same

/-- A drain succeeds and leaves a framer as new, whatever the port and the clock do and whatever was
queued or under way. All that is returned later, after anything else that is done with the link, was
delivered after the drain: raw input as it came, and messages as a new framer completes them. Only
an exchange that is answered from memory can return what was remembered before. A virtual port is
empty afterwards if the drain gets to a poll, and is left alone if not. -/
theorem drain_forgets :
    (∀ (P : Type) [Port P] [LawfulPort P] (l : Link P),
      let l₀ := final (drain l)
      drain l = .ok () l₀ ∧ l₀.framer = {} ∧
        ∀ (visits : List (Run × Work)) (run : Run) (call : Hearing) (bytes : Bytes) (l' : Link P),
          let l₁ := { visits.foldl worked l₀ with run }
          call.action l₁ = .ok bytes l' →
          ∃ input, l'.delivered = l₀.delivered ++ input ∧
            (bytes.Sublist input ∧ call.From input bytes ∨
              ∃ t, call = .reply t ∧ l₁.remembered t = some bytes ∧ (t.raw, bytes) ∈ l.cache.entries)) ∧
    ∀ l : Link VirtualPort,
      (LetsPoll l → (final (drain l)).port = { l.port with pending := [] }) ∧
        (¬ LetsPoll l → (final (drain l)).port = l.port) := by
  constructor
  · intro P _ _ l l₀
    refine ⟨drain_ok l, drain_framer l, ?_⟩
    intro visits run call bytes l' l₁ ran
    have unmixed : Unmixed l₀ l₁ :=
      (unmixed_after (unmixed_self (drain_framer l)) visits).apart rfl rfl (List.Subset.refl _)
    obtain ⟨input, delivered, origin | ⟨t, same, known, old⟩⟩ := unmixed.returned ran
    · exact ⟨input, delivered, .inl ⟨origin.sublist, origin⟩⟩
    · rw [drain_cache] at old
      exact ⟨input, delivered, .inr ⟨t, same, known, old⟩⟩
  · exact drain_port

def staleLink : Link ScriptedPort :=
  let port : ScriptedPort := { name := "scripted", reads := [
    .bytes [3, 0xF7], .fault ⟨.brokenPipe, "gone"⟩, .bytes [0xF0, 4, 0xF7]] }
  { ofPort "scripted:0" port Timing.standard with framer := Framer.push {} [0xF0, 1, 0xF7, 0xF0, 2] }

def crowdedLink : Link VirtualPort :=
  ofPort "virtual:0" ((VirtualPort.silent "virtual").inject (List.replicate 3000 1)) Timing.standard

def hurriedLink : Link VirtualPort := { crowdedLink with timing.restTime := 0 }

theorem staleLink_forgets :
    let l₀ := final (drain staleLink)
    let asked : Run × Work := ({}, .tell { raw := [0xF0, 9, 0xF7], timeout := 100 })
    let next : Hearing := .messages { raw := [], timeout := 100 }
    let result := next.action { [asked].foldl worked l₀ with run := {} }
    (staleLink.framer.queue = [[0xF0, 1, 0xF7]] ∧ l₀.framer = {} ∧ l₀.delivered = [3, 0xF7] ∧
      result = .ok [0xF0, 4, 0xF7] (final result) ∧
      ∃ input, (final result).delivered = l₀.delivered ++ input ∧ HeardIn input [0xF0, 4, 0xF7]) ∧
    (LetsPoll crowdedLink ∧
      (final (drain crowdedLink)).port = { crowdedLink.port with pending := [] }) ∧
    ¬ LetsPoll hurriedLink ∧ (final (drain hurriedLink)).port = hurriedLink.port := by
  intro l₀ asked next result
  have ran : result = .ok [0xF0, 4, 0xF7] (final result) := eq_ok_of_answer (by decide +kernel)
  obtain ⟨links, virtual⟩ := drain_forgets
  obtain ⟨-, framer, later⟩ := links ScriptedPort staleLink
  have polls : LetsPoll crowdedLink := ⟨0, 0, by decide +kernel, by decide, by decide⟩
  have rests : ¬ LetsPoll hurriedLink := by
    rintro ⟨silence, passed, -, early, -⟩
    exact Nat.not_lt_zero silence early
  refine ⟨⟨by decide +kernel, framer, by decide +kernel, ran, ?_⟩,
    ⟨polls, (virtual crowdedLink).1 polls⟩, rests, (virtual hurriedLink).2 rests⟩
  obtain ⟨input, delivered, ⟨-, origin⟩ | ⟨t, other, -⟩⟩ := later [asked] {} next _ _ ran
  · exact ⟨input, delivered, origin⟩
  · simp only [next, reduceCtorEq] at other

end MidiStorage.Link
