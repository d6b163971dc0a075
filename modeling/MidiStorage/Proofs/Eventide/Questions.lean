import MidiStorage.Eventide.Dialect
import MidiStorage.Proofs.Cache.Deeds
import MidiStorage.Proofs.Identity
import MidiStorage.Proofs.Transfer.Faults

namespace MidiStorage.Eventide

open MidiStorage.Action

/-- The identity reply of a pedal, which is at least sixteen bytes long. -/
structure OfPedal (version : Vector UInt8 4) (reply : Bytes) : Prop where
  length : minIdentityLength ≤ reply.length
  answers : Identity.Answers ⟨companyCode, familyCode, modelCode, version⟩ reply

def switchesLength (reply : Bytes) : Nat :=
  ((reply.drop textOffset).takeWhile fun b => b ≠ 0 ∧ b ≠ Bytes.sysexEnd).length

inductive Switches (reply : Bytes) : PedalKind → Prop
  | factor (length : switchesLength reply = 19) : Switches reply .factor
  | h9 (length : switchesLength reply = 20) : Switches reply .h9

def Long (reply : Bytes) : Prop := 4 < reply.length

structure Question where
  request : Bytes
  limit : Timing → Nat
  accepts : Bytes → Prop

def questions : List Question :=
  [{ request := identityRequest
     limit := (·.guessTimeout)
     accepts := fun reply => ∃ version, OfPedal version reply },
   { request := query .object keyVersion
     limit := (·.replyTimeout)
     accepts := Long },
   { request := query .value keySwitches
     limit := (·.replyTimeout)
     accepts := fun reply => Long reply ∧ ∃ kind, Switches reply kind },
   { request := query .object keyLowBank
     limit := (·.replyTimeout)
     accepts := Long },
   { request := query .object keyHighBank
     limit := (·.replyTimeout)
     accepts := Long }]

example : questions.map (·.request) =
    [[0xF0, 0x7E, 0x7F, 0x06, 0x01, 0xF7],
     [0xF0, 0x1C, 0x70, 0x00, 0x31, 0x30, 0x30, 0x30, 0x30, 0xF7],
     [0xF0, 0x1C, 0x70, 0x00, 0x3B, 0x30, 0x30, 0x30, 0x31, 0xF7],
     [0xF0, 0x1C, 0x70, 0x00, 0x31, 0x30, 0x32, 0x30, 0x36, 0xF7],
     [0xF0, 0x1C, 0x70, 0x00, 0x31, 0x30, 0x32, 0x30, 0x41, 0xF7]] := by decide

inductive Ending
  | complete
  | refused
  | broken (e : Failure)

variable {P : Type} [Port P]

def Question.put (q : Question) : Action (Link P) Bytes := fun l =>
  Link.transact q.request (q.limit l.timing) false l

/-- The replies that the questions get, and how the conversation ends. -/
inductive Converses : List Question → Link P → List Bytes → Ending → Link P → Prop
  | complete (l : Link P) : Converses [] l [] .complete l
  | broken {q : Question} {qs : List Question} {l l' : Link P} {e : Failure}
    (failed : q.put l = .error e l') : Converses (q :: qs) l [] (.broken e) l'
  | refused {q : Question} {qs : List Question} {l l' : Link P} {reply : Bytes}
    (heard : q.put l = .ok reply l') (refused : ¬ q.accepts reply) :
    Converses (q :: qs) l [reply] .refused l'
  | accepted {q : Question} {qs : List Question} {l l₁ l' : Link P} {reply : Bytes}
    {replies : List Bytes} {ending : Ending} (heard : q.put l = .ok reply l₁)
    (accepted : q.accepts reply) (rest : Converses qs l₁ replies ending l') :
    Converses (q :: qs) l (reply :: replies) ending l'

theorem Converses.unique {qs : List Question} {l l₁ l₂ : Link P} {replies others : List Bytes}
    {ending other : Ending} (converses : Converses qs l replies ending l₁)
    (again : Converses qs l others other l₂) : replies = others ∧ ending = other ∧ l₁ = l₂ := by
  induction converses generalizing others with
  | complete l =>
    cases again
    exact ⟨rfl, rfl, rfl⟩
  | broken failed =>
    cases again with
    | broken same =>
      cases failed.symm.trans same
      exact ⟨rfl, rfl, rfl⟩
    | refused heard _ => cases failed.symm.trans heard
    | accepted heard _ _ => cases failed.symm.trans heard
  | refused heard refused =>
    cases again with
    | broken failed => cases heard.symm.trans failed
    | refused same _ =>
      cases heard.symm.trans same
      exact ⟨rfl, rfl, rfl⟩
    | accepted same accepted _ =>
      cases heard.symm.trans same
      exact absurd accepted refused
  | accepted heard accepted rest ih =>
    cases again with
    | broken failed => cases heard.symm.trans failed
    | refused same refused =>
      cases heard.symm.trans same
      exact absurd accepted refused
    | accepted same _ others =>
      cases heard.symm.trans same
      obtain ⟨rfl, rfl, rfl⟩ := ih others
      exact ⟨rfl, rfl, rfl⟩

/-- The requests that were answered, and of one that was not as much as the port took. Only a fault
of the port cuts a request short. -/
def Writes (qs : List Question) (replies : List Bytes) (ending : Ending) (bytes : Bytes) : Prop :=
  ∃ last, bytes = (qs.take replies.length).flatMap (·.request) ++ last ∧
    match ending with
    | .broken e => ∃ q, qs[replies.length]? = some q ∧
      (last = q.request ∨ (∃ k < q.request.length, last = q.request.take k) ∧ ∃ reason, e = .io reason)
    | _ => last = []

section

variable {q : Question} {l l' : Link P} {reply : Bytes} {e : Failure}

theorem Question.put_error (failed : q.put l = .error e l') :
    ((∃ k < q.request.length, l'.accepted = l.accepted ++ q.request.take k) ∧ ∃ reason, e = .io reason) ∨
      l'.accepted = l.accepted ++ q.request ∧
        ((∃ reason, e = .io reason) ∨ e = .timedOut (q.limit l.timing)) := by
  let t : Transfer := { raw := q.request, timeout := q.limit l.timing }
  have failed : Link.exchange t l = .error e l' := failed
  rcases Link.exchange_error failed with ⟨part, fault⟩ | ⟨whole, fault⟩
  · left
    cases fault with
    | io reason => exact ⟨part, reason, rfl⟩
    | timedOut waits => cases waits
    | cancelled job => cases job
  · right
    refine ⟨whole, ?_⟩
    cases fault with
    | io reason => exact .inl ⟨reason, rfl⟩
    | timedOut waits =>
      cases waits
      exact .inr rfl
    | cancelled job => cases job

theorem Question.put_message (clean : l.Clean) (heard : q.put l = .ok reply l') :
    reply.IsMessage ∧ l'.Clean :=
  Link.transact_message clean heard

def Forgotten (qs : List Question) (l : Link P) : Prop :=
  ∀ q ∈ qs, ∀ entry ∈ l.cache.entries, entry.1 ≠ q.request

theorem Question.put_ok {qs : List Question} (forgotten : Forgotten (q :: qs) l)
    (other : q.request ∉ qs.map (·.request)) (heard : q.put l = .ok reply l') :
    l'.accepted = l.accepted ++ q.request ∧ Forgotten qs l' := by
  let t : Transfer := { raw := q.request, timeout := q.limit l.timing }
  have heard : Link.exchange t l = .ok reply l' := heard
  constructor
  · refine Link.exchange_ok (t := t) ?_ heard
    cases known : l.remembered t with
    | none => rfl
    | some reply =>
      exact absurd rfl (forgotten q (List.mem_cons_self ..) _ (Link.mem_of_remembered known))
  · intro r member entry kept same
    have added := Link.exchange_remembers t l entry
    rw [heard] at added
    rcases added kept with old | ⟨-, asked, -⟩
    · exact forgotten r (List.mem_cons_of_mem _ member) entry old same
    · refine other (List.mem_map.mpr ⟨r, member, ?_⟩)
      rw [← same, ← asked]

end

theorem Converses.writes {qs : List Question} {l l' : Link P} {replies : List Bytes} {ending : Ending}
    (converses : Converses qs l replies ending l') (distinct : (qs.map (·.request)).Nodup)
    (forgotten : Forgotten qs l) :
    ∃ bytes, l'.accepted = l.accepted ++ bytes ∧ Writes qs replies ending bytes := by
  induction converses with
  | complete l => exact ⟨[], (List.append_nil _).symm, [], rfl, rfl⟩
  | @broken q qs l l' e failed =>
    rcases Question.put_error failed with ⟨⟨k, inside, part⟩, fault⟩ | ⟨whole, -⟩
    · exact ⟨_, part, _, rfl, q, rfl, .inr ⟨⟨k, inside, rfl⟩, fault⟩⟩
    · exact ⟨_, whole, _, rfl, q, rfl, .inl rfl⟩
  | @refused q qs l l' reply heard refused =>
    have other := (List.nodup_cons.mp distinct).1
    refine ⟨_, (Question.put_ok forgotten other heard).1, [], ?_, rfl⟩
    simp
  | @accepted q qs l l₁ l' reply replies ending heard accepted rest ih =>
    obtain ⟨other, distinct⟩ := List.nodup_cons.mp distinct
    obtain ⟨written, forgotten⟩ := Question.put_ok forgotten other heard
    obtain ⟨bytes, later, last, whole, ends⟩ := ih distinct forgotten
    refine ⟨q.request ++ bytes, ?_, last, ?_, ends⟩
    · rw [later, written, List.append_assoc]
    · rw [whole, List.length_cons, List.take_succ_cons, List.flatMap_cons, List.append_assoc]

end MidiStorage.Eventide
