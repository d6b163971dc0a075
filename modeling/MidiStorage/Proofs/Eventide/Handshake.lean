import MidiStorage.Port.Virtual
import MidiStorage.Proofs.Eventide.Recognition
import MidiStorage.Proofs.Layers

namespace MidiStorage.Eventide

open MidiStorage.Action

variable {P : Type} [Port P]

def recognised (m : Mount P) (identity : Identity) (p : Pedal) (l : Link P) : Mount P where
  device :=
    { link := l
      info := { m.device.info with
        name := p.kind.label ++ " " ++ identity.versionString
        identity
        volumes := 1 }
      state := some (.pedal p) }
  volumes := [presetVolume P]

theorem handshake_of_ok {m : Mount P} {identity : Identity} {p : Pedal} {l : Link P}
    (identified : identify m.device.link = .ok (identity, p) l) :
    handshake m = .ok () (recognised m identity p l) := by
  have bits : (0 : Nat) ||| (presetVolume P).id = 1 := Nat.zero_or 1
  rw [handshake, bind_of_ok (Mount.onLink_of_ok identified)]
  simp only [modify_apply, Mount.setVolumes, List.foldl_cons, List.foldl_nil, bits]
  rfl

theorem handshake_of_error {m : Mount P} {e : Failure} {l : Link P}
    (failed : identify m.device.link = .error e l) :
    handshake m = .error e { m with device := { m.device with link := l } } := by
  rw [handshake, bind_of_error (Mount.onLink_of_error failed)]

/-- How a handshake ends after a conversation that left the link as `l`. -/
structure Classified (m : Mount P) (replies : List Bytes) (ending : Ending) (l : Link P) : Prop where
  writes : Forgotten questions m.device.link →
    ∃ bytes, l.accepted = m.device.link.accepted ++ bytes ∧ Writes questions replies ending bytes
  notFound : (∃ reason, answer (handshake m) = .error (.notFound reason)) ↔ Unrecognised replies ending
  badMessage : (∃ reason, answer (handshake m) = .error (.badMessage reason)) ↔ Malformed replies ending
  other (e : Failure) : (∀ reason, e ≠ .notFound reason) → (∀ reason, e ≠ .badMessage reason) →
    (answer (handshake m) = .error e ↔ ending = .broken e ∧ ¬ Unrecognised replies ending)
  unchanged (e : Failure) : answer (handshake m) = .error e →
    final (handshake m) = { m with device := { m.device with link := l } }
  matched : answer (handshake m) = .ok () → ∃ identity p, ending = .complete ∧
    Matched replies identity p ∧ final (handshake m) = recognised m identity p l

theorem answer_handshake (m : Mount P) :
    answer (handshake m) = (answer (identify m.device.link)).map fun _ => () := by
  cases identified : identify m.device.link with
  | ok pair l =>
    obtain ⟨identity, p⟩ := pair
    rw [handshake_of_ok identified]
    rfl
  | error e l =>
    rw [handshake_of_error identified]
    rfl

theorem answer_handshake_error (m : Mount P) (e : Failure) :
    answer (handshake m) = .error e ↔ answer (identify m.device.link) = .error e := by
  rw [answer_handshake]
  cases answer (identify m.device.link) <;> simp [Except.map]

/-- Whatever the port does. Replies that are remembered count as heard, and are not asked for. -/
theorem handshake_classifies (m : Mount P)
    (framed : ∀ entry ∈ m.device.link.cache.entries, entry.2.IsMessage) :
    ∃ replies ending l, Converses questions (final (Link.drain m.device.link)) replies ending l ∧
      Classified m replies ending l := by
  have kept : (final (Link.drain m.device.link)).cache.entries = m.device.link.cache.entries :=
    Link.final_drain (I := fun l => l.cache.entries = m.device.link.cache.entries) rfl
      (fun _ _ same => same) fun _ same => same
  have silent : (final (Link.drain m.device.link)).accepted = m.device.link.accepted :=
    Link.final_drain (I := fun l => l.accepted = m.device.link.accepted) rfl
      (Link.accepted_lasting _).run (Link.accepted_lasting _).read
  obtain ⟨replies, ending, converses, verdict⟩ := identify_concludes framed
  refine ⟨replies, ending, _, converses, ?_, ?_, ?_, ?_, ?_, ?_⟩
  · intro forgotten
    have writes := converses.writes (by decide) (by rwa [Forgotten, kept])
    rwa [silent] at writes
  · simp only [answer_handshake_error]
    exact verdict.notFound_iff
  · simp only [answer_handshake_error]
    exact verdict.badMessage_iff
  · intro e found good
    rw [answer_handshake_error]
    exact verdict.error_iff found good
  · intro e failed
    cases identified : identify m.device.link with
    | ok pair l =>
      rw [answer_handshake, identified] at failed
      cases failed
    | error e l =>
      rw [handshake_of_error identified]
      rfl
  · intro succeeded
    cases identified : identify m.device.link with
    | ok pair l =>
      obtain ⟨identity, p⟩ := pair
      rw [identified] at verdict
      cases verdict with
      | matched complete matched =>
        rw [handshake_of_ok identified]
        exact ⟨identity, p, complete, matched, rfl⟩
    | error e l =>
      rw [answer_handshake, identified] at succeeded
      cases succeeded

def said (code : UInt8) (text : String) : Bytes :=
  [0xF0, 0x1C, 0x70, 2, code] ++ Text.Utf8.encode text.toList ++ [0, 0xF7]

def identitySaid : Bytes := [0xF0, 0x7E, 0, 6, 2, 0x1C, 0, 6, 0x11, 0, 5, 1, 0, 7, 0, 0xF7]

def answering (switches low high : String) : Mount VirtualPort :=
  Mount.ofLink (Link.ofPort "virtual:0"
    { name := "virtual"
      respond := ReplyRule.device
        [{ request := identityRequest, replies := [[identitySaid]] },
         { request := query .object keyVersion, replies := [[said 0x31 "0000 V5.1.0"]] },
         { request := query .value keySwitches, replies := [[said 0x3B ("01" ++ switches)]] },
         { request := query .object keyLowBank, replies := [[said 0x31 ("0206" ++ low)]] },
         { request := query .object keyHighBank, replies := [[said 0x31 ("020A" ++ high)]] }] }
    Timing.standard)

theorem answering_framed (switches low high : String) :
    ∀ entry ∈ (answering switches low high).device.link.cache.entries, entry.2.IsMessage := by
  intro entry none
  cases none

def occupied (switches low high : String) : Mount VirtualPort :=
  let m := answering switches low high
  { m with device := (m.device.setName "Synth").setState (.text "synth") }

/-- A pedal is recognised after all five questions. A device with other switches is not, and what
was known of it before stays. -/
theorem handshake_classifies_answering :
    let pedal := answering "'000000000000000000'" "0" "99"
    let other := occupied "'0000000000000000'" "0" "99"
    (∃ replies l identity p,
      Converses questions (final (Link.drain pedal.device.link)) replies .complete l ∧
      l.accepted = questions.flatMap (·.request) ∧ Matched replies identity p ∧
      final (handshake pedal) = recognised pedal identity p l) ∧
    (∃ replies ending l,
      Converses questions (final (Link.drain other.device.link)) replies ending l ∧
      Unrecognised replies ending ∧
      (final (handshake other)).device.info.name = "Synth") := by
  intro pedal other
  constructor
  · have succeeded : answer (handshake pedal) = .ok () := by decide +kernel
    obtain ⟨replies, ending, l, converses, classified⟩ := handshake_classifies pedal (answering_framed _ _ _)
    obtain ⟨identity, p, rfl, matched, mounted⟩ := classified.matched succeeded
    obtain ⟨bytes, accepted, last, written, rfl⟩ := classified.writes fun _ _ _ none => by cases none
    refine ⟨replies, l, identity, p, converses, ?_, matched, mounted⟩
    cases matched
    rw [accepted, written, List.append_nil]
    rfl
  · have failed : answer (handshake other) =
        .error (.notFound "illegal switches '0000000000000000'") := by decide +kernel
    obtain ⟨replies, ending, l, converses, classified⟩ := handshake_classifies other (answering_framed _ _ _)
    refine ⟨replies, ending, l, converses, classified.notFound.mp ⟨_, failed⟩, ?_⟩
    rw [classified.unchanged _ failed]
    rfl

end MidiStorage.Eventide
