import MidiStorage.Proofs.Eventide.Framed
import MidiStorage.Proofs.Eventide.Questions
import MidiStorage.Proofs.Eventide.SlotRange
import MidiStorage.Proofs.Transfer.Draining

namespace MidiStorage.Eventide

open MidiStorage.Action

theorem pedalIdentity_cases (reply : Bytes) :
    (∃ version, OfPedal version reply ∧
        pedalIdentity reply = .ok ⟨companyCode, familyCode, modelCode, version⟩) ∨
      (∃ reason, pedalIdentity reply = .error (.notFound reason)) ∧ ∀ version, ¬ OfPedal version reply := by
  unfold pedalIdentity
  split_ifs with short
  · refine .inr ⟨⟨_, rfl⟩, ?_⟩
    intro version pedal
    exact absurd pedal.length (Nat.not_le_of_lt short)
  · cases read : Identity.ofReply reply with
    | error e =>
      refine .inr ⟨⟨_, rfl⟩, ?_⟩
      intro version pedal
      rw [Identity.ofReply_ok_iff.mpr pedal.answers] at read
      cases read
    | ok identity =>
      have answers := Identity.ofReply_ok_iff.mp read
      dsimp only
      split_ifs with codes
      · obtain ⟨company, family, model, version⟩ := identity
        obtain ⟨rfl, rfl, rfl⟩ := codes
        exact .inl ⟨version, ⟨Nat.le_of_not_lt short, answers⟩, rfl⟩
      · refine .inr ⟨⟨_, rfl⟩, ?_⟩
        intro version pedal
        rw [Identity.ofReply_ok_iff.mpr pedal.answers] at read
        cases read
        exact codes ⟨rfl, rfl, rfl⟩

theorem kindOfSwitches_cases {reply : Bytes} (whole : reply.IsMessage) :
    (∃ kind, Switches reply kind ∧ kindOfSwitches (textAt reply textOffset) = .ok kind) ∨
      (∃ reason, kindOfSwitches (textAt reply textOffset) = .error (.notFound reason)) ∧
        ∀ kind, ¬ Switches reply kind := by
  have behind : 0 < textOffset := by decide
  have bytes : (Text.Utf8.encode (textAt reply textOffset)).length = switchesLength reply := by
    rw [(encode_textAt whole behind).2]
    rfl
  unfold kindOfSwitches
  rw [bytes]
  by_cases factor : switchesLength reply = 19
  · rw [factor]
    exact .inl ⟨.factor, .factor factor, rfl⟩
  by_cases h9 : switchesLength reply = 20
  · rw [h9]
    exact .inl ⟨.h9, .h9 h9, rfl⟩
  have other : (if 2 ≤ switchesLength reply then
      PedalKind.ofSwitchCount? (switchesLength reply - 2) else none) = none := by
    split_ifs with quoted
    · unfold PedalKind.ofSwitchCount?
      split <;> first | omega | rfl
    · rfl
  simp only [other]
  refine .inr ⟨⟨_, rfl⟩, ?_⟩
  rintro kind (same | same)
  · exact factor same
  · exact h9 same

theorem Switches.unique {reply : Bytes} {kind other : PedalKind} (known : Switches reply kind)
    (again : Switches reply other) : kind = other := by
  cases known with
  | factor length =>
    cases again with
    | factor => rfl
    | h9 same => cases length.symm.trans same
  | h9 length =>
    cases again with
    | factor same => cases length.symm.trans same
    | h9 => rfl

theorem number_of_message {m : Bytes} (message : m.IsMessage) (long : header.length < m.length) :
    m.getD deviceOffset 0 < 0x80 := by
  obtain ⟨opening, ⟨body, rfl, data⟩, rfl⟩ := message
  have size : 2 < body.length := by
    simp only [header, List.length_cons, List.length_nil, List.length_append] at long
    omega
  have here : (Bytes.sysexStart :: body ++ [Bytes.sysexEnd]).getD deviceOffset 0 = body[2] := by
    rw [List.getD_eq_getElem?_getD, deviceOffset, List.cons_append, List.getElem?_cons_succ,
      List.getElem?_append_left size, List.getElem?_eq_getElem size, Option.getD_some]
  rw [here]
  exact of_decide_eq_true (data _ (List.getElem_mem size))

/-- The conversations after which another dialect is to be asked. -/
inductive Unrecognised : List Bytes → Ending → Prop
  | silent {timeout : Nat} : Unrecognised [] (.broken (.timedOut timeout))
  | stranger {reply : Bytes} (other : ∀ version, ¬ OfPedal version reply) :
    Unrecognised [reply] .refused
  | switches {reply version switches : Bytes} (long : Long switches)
    (other : ∀ kind, ¬ Switches switches kind) : Unrecognised [reply, version, switches] .refused

inductive Malformed : List Bytes → Ending → Prop
  | short {replies : List Bytes} {reply : Bytes} (query : replies ≠ []) (short : ¬ Long reply) :
    Malformed (replies ++ [reply]) .refused
  | range {reply version switches low high : Bytes} {kind : PedalKind} (known : Switches switches kind)
    (illegal : ¬ LegalRange (kind.range (numberAt low numberOffset) (numberAt high numberOffset))) :
    Malformed [reply, version, switches, low, high] .complete

inductive Matched : List Bytes → Identity → Pedal → Prop
  | intro {reply version switches low high : Bytes} {codes : Vector UInt8 4} {p : Pedal}
    (ofPedal : OfPedal codes reply) (device : p.deviceId = version.getD deviceOffset 0)
    (data : p.deviceId < 0x80) (known : Switches switches p.kind)
    (legal : LegalRange (p.kind.range (numberAt low numberOffset) (numberAt high numberOffset)))
    (first : p.first = (p.kind.range (numberAt low numberOffset) (numberAt high numberOffset)).1)
    (count : p.count = (p.kind.range (numberAt low numberOffset) (numberAt high numberOffset)).2 -
      (p.kind.range (numberAt low numberOffset) (numberAt high numberOffset)).1)
    (unread : p.bank = none) :
    Matched [reply, version, switches, low, high] ⟨companyCode, familyCode, modelCode, codes⟩ p

theorem Malformed.illegal {reply version switches low high : Bytes} {kind : PedalKind}
    (malformed : Malformed [reply, version, switches, low, high] .complete)
    (known : Switches switches kind) :
    ¬ LegalRange (kind.range (numberAt low numberOffset) (numberAt high numberOffset)) := by
  generalize same : [reply, version, switches, low, high] = replies at malformed
  cases malformed with
  | range again illegal =>
    cases same
    rwa [again.unique known] at illegal

theorem Unrecognised.not_malformed {replies : List Bytes} {ending : Ending}
    (unrecognised : Unrecognised replies ending) : ¬ Malformed replies ending := by
  intro malformed
  generalize same : replies = heard at malformed
  cases unrecognised with
  | silent => cases malformed
  | stranger other =>
    cases malformed with
    | @short replies _ query short =>
      have single := congrArg List.length same
      rw [List.length_append, List.length_singleton, List.length_singleton] at single
      exact query (List.length_eq_zero_iff.mp (by omega))
  | switches long other =>
    cases malformed with
    | short query short =>
      have last := congrArg List.getLast? same
      rw [List.getLast?_concat] at last
      cases last
      exact short long

inductive Verdict (replies : List Bytes) (ending : Ending) : Except Failure (Identity × Pedal) → Prop
  | notFound {reason : String} (why : Unrecognised replies ending) :
    Verdict replies ending (.error (.notFound reason))
  | badMessage {reason : String} (why : Malformed replies ending) :
    Verdict replies ending (.error (.badMessage reason))
  | broken {e : Failure} (broken : ending = .broken e)
    (fault : (∃ reason, e = .io reason) ∨ ∃ timeout, e = .timedOut timeout)
    (known : ¬ Unrecognised replies ending) : Verdict replies ending (.error e)
  | matched {identity : Identity} {p : Pedal} (complete : ending = .complete)
    (matched : Matched replies identity p) : Verdict replies ending (.ok (identity, p))

namespace Verdict

variable {replies : List Bytes} {ending : Ending} {result : Except Failure (Identity × Pedal)}

theorem notFound_iff (verdict : Verdict replies ending result) :
    (∃ reason, result = .error (.notFound reason)) ↔ Unrecognised replies ending := by
  cases verdict with
  | notFound why => simp [why]
  | badMessage why =>
    have known : ¬ Unrecognised replies ending := fun unrecognised => unrecognised.not_malformed why
    simp [known]
  | broken broken fault known => rcases fault with ⟨reason, rfl⟩ | ⟨timeout, rfl⟩ <;> simp [known]
  | matched complete matched =>
    have known : ¬ Unrecognised replies ending := by
      intro unrecognised
      cases unrecognised <;> cases complete
    simp [known]

theorem badMessage_iff (verdict : Verdict replies ending result) :
    (∃ reason, result = .error (.badMessage reason)) ↔ Malformed replies ending := by
  cases verdict with
  | notFound why => simp [why.not_malformed]
  | badMessage why => simp [why]
  | broken broken fault known =>
    have sound : ¬ Malformed replies ending := by
      intro malformed
      cases malformed <;> cases broken
    rcases fault with ⟨reason, rfl⟩ | ⟨timeout, rfl⟩ <;> simp [sound]
  | matched complete matched =>
    have sound : ¬ Malformed replies ending := by
      intro malformed
      subst complete
      cases matched with
      | intro _ _ _ known legal => exact malformed.illegal known legal
    simp [sound]

theorem error_iff (verdict : Verdict replies ending result) {e : Failure}
    (found : ∀ reason, e ≠ .notFound reason) (good : ∀ reason, e ≠ .badMessage reason) :
    result = .error e ↔ ending = .broken e ∧ ¬ Unrecognised replies ending := by
  cases verdict with
  | @notFound reason why => simp [(found reason).symm, why]
  | @badMessage reason why =>
    have whole : ending ≠ .broken e := by
      rintro rfl
      cases why
    simp [(good reason).symm, whole]
  | broken broken fault known =>
    subst broken
    simp [known]
  | matched complete matched =>
    subst complete
    simp

end Verdict

variable {P : Type} [Port P]

def Concludes (prior : List Bytes) (qs : List Question) (l : Link P)
    (result : EStateM.Result Failure (Link P) (Identity × Pedal)) : Prop :=
  ∃ replies ending, Converses qs l replies ending (final result) ∧
    Verdict (prior ++ replies) ending (answer result)

section

variable {q : Question} {qs : List Question} {prior : List Bytes} {l : Link P} {type : QueryType}
  {key : String} {rest : Bytes → Action (Link P) (Identity × Pedal)}

/-- A query continues a conversation: it is broken off, or the reply is too short, or what follows
refuses the reply, or goes on with it. -/
theorem ask_concludes (request : q.request = query type key) (limit : q.limit = (·.replyTimeout))
    (needs : ∀ reply, q.accepts reply → Long reply) (asked : prior ≠ []) (clean : l.Clean)
    (refuses : ∀ reply l₁, reply.IsMessage → Long reply → ¬ q.accepts reply →
      final (rest reply l₁) = l₁ ∧ Verdict (prior ++ [reply]) .refused (answer (rest reply l₁)))
    (goesOn : ∀ reply l₁, reply.IsMessage → l₁.Clean → q.accepts reply →
      Concludes (prior ++ [reply]) qs l₁ (rest reply l₁)) :
    Concludes prior (q :: qs) l ((ask type key >>= rest) l) := by
  have put : Link.transact (query type key) l.timing.replyTimeout false l = q.put l := by
    rw [Question.put, request, limit]
  have asking : ask type key l = (q.put >>= fun reply => do
      if reply.length ≤ header.length then throw (.badMessage ("short reply to key " ++ key))
      pure reply) l := by
    rw [ask, bind_of_ok (get_apply l), bind_apply, bind_apply, put]
  rw [bind_apply, asking]
  cases heard : q.put l with
  | error e l₁ =>
    rw [bind_of_error heard]
    refine ⟨[], .broken e, .broken heard, .broken rfl ?_ ?_⟩
    · rcases Question.put_error heard with ⟨-, reason, rfl⟩ | ⟨-, ⟨reason, rfl⟩ | rfl⟩
      · exact .inl ⟨reason, rfl⟩
      · exact .inl ⟨reason, rfl⟩
      · exact .inr ⟨_, rfl⟩
    · rw [List.append_nil]
      intro unrecognised
      cases unrecognised
      exact asked rfl
  | ok reply l₁ =>
    obtain ⟨message, clean₁⟩ := Question.put_message clean heard
    rw [bind_of_ok heard]
    by_cases long : Long reply
    · have enough : ¬ reply.length ≤ header.length := Nat.not_le_of_lt long
      rw [if_neg enough]
      change Concludes prior (q :: qs) l (rest reply l₁)
      by_cases accepted : q.accepts reply
      · obtain ⟨replies, ending, converses, verdict⟩ := goesOn reply l₁ message clean₁ accepted
        rw [List.append_assoc] at verdict
        exact ⟨reply :: replies, ending, .accepted heard accepted converses, verdict⟩
      · obtain ⟨same, verdict⟩ := refuses reply l₁ message long accepted
        refine ⟨[reply], .refused, ?_, verdict⟩
        rw [same]
        exact .refused heard accepted
    · have short : reply.length ≤ header.length := Nat.le_of_not_lt long
      rw [if_pos short]
      refine ⟨[reply], .refused, .refused heard fun accepted => long (needs reply accepted), ?_⟩
      exact .badMessage (.short asked long)

theorem ask_concludes_long (request : q.request = query type key) (limit : q.limit = (·.replyTimeout))
    (accepts : q.accepts = Long) (asked : prior ≠ []) (clean : l.Clean)
    (goesOn : ∀ reply l₁, reply.IsMessage → l₁.Clean → Long reply →
      Concludes (prior ++ [reply]) qs l₁ (rest reply l₁)) :
    Concludes prior (q :: qs) l ((ask type key >>= rest) l) := by
  apply ask_concludes request limit _ asked clean
  · intro reply l₁ message long refused
    rw [accepts] at refused
    exact absurd long refused
  · intro reply l₁ message clean₁ accepted
    rw [accepts] at accepted
    exact goesOn reply l₁ message clean₁ accepted
  · intro reply accepted
    rwa [accepts] at accepted

theorem inquire_concludes (request : q.request = identityRequest) (limit : q.limit = (·.guessTimeout))
    (accepts : q.accepts = fun reply => ∃ version, OfPedal version reply) (clean : l.Clean)
    (refuses : ∀ reply l₁, (∀ version, ¬ OfPedal version reply) →
      final (rest reply l₁) = l₁ ∧ ∃ reason, answer (rest reply l₁) = .error (.notFound reason))
    (goesOn : ∀ reply version l₁, l₁.Clean → OfPedal version reply →
      Concludes [reply] qs l₁ (rest reply l₁)) :
    Concludes [] (q :: qs) l ((inquire >>= rest) l) := by
  have put : Link.transact identityRequest l.timing.guessTimeout false l = q.put l := by
    rw [Question.put, request, limit]
  rw [bind_apply, inquire, bind_of_ok (get_apply l)]
  cases heard : q.put l with
  | error e l₁ =>
    have outcome := outcome_of_error (put.trans heard)
    rw [bind_of_ok outcome]
    refine ⟨[], .broken e, ?_⟩
    rcases Question.put_error heard with ⟨-, reason, rfl⟩ | ⟨-, ⟨reason, rfl⟩ | rfl⟩
    · refine ⟨.broken heard, .broken rfl (.inl ⟨reason, rfl⟩) ?_⟩
      intro unrecognised
      cases unrecognised
    · refine ⟨.broken heard, .broken rfl (.inl ⟨reason, rfl⟩) ?_⟩
      intro unrecognised
      cases unrecognised
    · exact ⟨.broken heard, .notFound .silent⟩
  | ok reply l₁ =>
    have outcome := outcome_of_ok (put.trans heard)
    obtain ⟨message, clean₁⟩ := Question.put_message clean heard
    rw [bind_of_ok outcome]
    change Concludes [] (q :: qs) l (rest reply l₁)
    by_cases accepted : ∃ version, OfPedal version reply
    · obtain ⟨version, pedal⟩ := accepted
      obtain ⟨replies, ending, converses, verdict⟩ := goesOn reply version l₁ clean₁ pedal
      refine ⟨reply :: replies, ending, .accepted heard ?_ converses, verdict⟩
      rw [accepts]
      exact ⟨version, pedal⟩
    · have other : ∀ version, ¬ OfPedal version reply := fun version pedal => accepted ⟨version, pedal⟩
      obtain ⟨same, reason, failed⟩ := refuses reply l₁ other
      refine ⟨[reply], .refused, ?_, ?_⟩
      · rw [same]
        refine .refused heard ?_
        rwa [accepts]
      · rw [failed]
        exact .notFound (.stranger other)

end

theorem identify_concludes {l : Link P} (remembered : ∀ entry ∈ l.cache.entries, entry.2.IsMessage) :
    Concludes [] questions (final (Link.drain l)) (identify l) := by
  have clean : (final (Link.drain l)).Clean :=
    Link.final_drain (I := Link.Clean) ⟨Framer.Clean.fresh, remembered⟩ Link.clean_enduring.run
      Link.clean_enduring.read
  rw [identify, bind_of_ok (Link.drain_ok l)]
  -- each reply is a message and leaves a clean link, which is what the next question needs
  apply inquire_concludes rfl rfl rfl clean
  · intro reply l₁ other
    rcases pedalIdentity_cases reply with ⟨version, pedal, -⟩ | ⟨⟨reason, refused⟩, -⟩
    · exact absurd pedal (other version)
    · rw [refused]
      exact ⟨rfl, reason, rfl⟩
  intro reply codes l₁ clean₁ pedal
  rcases pedalIdentity_cases reply with ⟨codes, pedal, identified⟩ | ⟨-, other⟩
  swap
  · exact absurd pedal (other codes)
  rw [identified, bind_of_ok (ofExcept_ok _ l₁)]
  apply ask_concludes_long rfl rfl rfl (List.cons_ne_nil _ _) clean₁
  intro version l₂ versionMessage clean₂ versionLong
  have needs (reply : Bytes) (accepted : Long reply ∧ ∃ kind, Switches reply kind) : Long reply :=
    accepted.1
  apply ask_concludes rfl rfl needs (List.cons_ne_nil _ _) clean₂
  · intro switches l₃ message long refused
    rcases kindOfSwitches_cases message with ⟨kind, known, -⟩ | ⟨⟨reason, unknown⟩, other⟩
    · exact absurd ⟨long, kind, known⟩ refused
    · rw [unknown]
      exact ⟨rfl, .notFound (.switches long other)⟩
  rintro switches l₃ message clean₃ ⟨long, kind, known⟩
  rcases kindOfSwitches_cases message with ⟨kind, known, read⟩ | ⟨-, other⟩
  swap
  · exact absurd known (other kind)
  rw [read, bind_of_ok (ofExcept_ok _ l₃)]
  apply ask_concludes_long rfl rfl rfl (List.cons_ne_nil _ _) clean₃
  intro low l₄ _ clean₄ _
  apply ask_concludes_long rfl rfl rfl (List.cons_ne_nil _ _) clean₄
  intro high l₅ _ _ _
  refine ⟨[], .complete, ?_⟩
  rcases slotRange_cases kind (numberAt low numberOffset) (numberAt high numberOffset) with
    ⟨first, count, range, legal, firstIs, countIs⟩ | ⟨⟨reason, range⟩, illegal⟩
  · rw [range]
    exact ⟨.complete l₅, .matched rfl (.intro pedal rfl (number_of_message versionMessage versionLong)
      known legal firstIs countIs rfl)⟩
  · rw [range]
    exact ⟨.complete l₅, .badMessage (.range known illegal)⟩

end MidiStorage.Eventide
