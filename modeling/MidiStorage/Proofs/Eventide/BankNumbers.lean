import MidiStorage.Proofs.Eventide.Handshake

namespace MidiStorage.Eventide

open MidiStorage.Action

/-- The integer that the text at an offset begins with, whatever its size; zero if there is none. -/
def integerAt (message : Bytes) (offset : Nat) : Int :=
  Text.Decimal.integer Text.isBlank (textAt message offset)

/-- An integer that does not fit into 64 bits is taken for zero. -/
def fitted (n : Int) : Int := if n.natAbs < 0x8000000000000000 then n else 0

theorem numberAt_eq (message : Bytes) (offset : Nat) :
    numberAt message offset = fitted (integerAt message offset) :=
  Text.Decimal.leading_eq _

structure Pedal.Covers (p : Pedal) (range : Int × Int) : Prop where
  first : p.first = range.1
  count : p.count = range.2 - range.1
  nonneg : 0 ≤ range.1
  ordered : range.1 ≤ range.2
  bounded : range.2 ≤ DevicePath.idBound

def dull : Preset := ⟨#v[" ", "", "", "", "", ""], ""⟩

theorem Presets.items_bounded {p : Pedal} (first : p.first < DevicePath.idBound) :
    (∀ dump : Bytes, dump.IsMessage → ∀ item ∈ items p (Preset.ofDump dump),
        item.id < DevicePath.idBound) ↔ p.first + p.count ≤ DevicePath.idBound := by
  constructor
  · intro bounded
    by_cases none : p.count = 0
    · omega
    · let bank := List.replicate p.count dull
      have plain : dull.Plain := by decide +kernel
      have same : ∀ q ∈ bank, q = dull := fun q member => List.eq_of_mem_replicate member
      have legible : ∀ q ∈ bank, q.Legible := by
        intro q member
        rw [same q member]
        exact plain.legible
      have ascii : ∀ q ∈ bank, Text.IsAscii q.text := by
        intro q member
        rw [same q member]
        exact plain.ascii_text
      have whole : (dumpOf 0 bank).IsMessage := isMessage_dumpOf (by decide) ascii
      have last : ({ id := p.first + (p.count - 1), name := "" } : Item) ∈
          items p (Preset.ofDump (dumpOf 0 bank)) := by
        rw [ofDump_dumpOf legible, items, List.mem_mapIdx]
        refine ⟨p.count - 1, ?_, ?_⟩
        · simp [bank]
          omega
        · simp [bank, dull]
      have fits := bounded _ whole _ last
      dsimp only at fits
      omega
  · intro bounded dump _ item member
    obtain ⟨i, inside, rfl⟩ := List.mem_mapIdx.mp member
    have small : i < p.count := by
      rw [List.length_take] at inside
      omega
    dsimp only
    omega

variable {P : Type} [Port P]

/-- The slots taken from two bank numbers. They are those of the range that was written exactly
if both numbers were read as written, and their ids have 32 bits exactly if the range ends within
them. -/
theorem handshake_slots {m : Mount P} {reply version switches low high : Bytes} {l : Link P}
    {kind : PedalKind} (framed : ∀ entry ∈ m.device.link.cache.entries, entry.2.IsMessage)
    (heard : Converses questions (final (Link.drain m.device.link)) [reply, version, switches, low, high]
      .complete l) (known : Switches switches kind) :
    let written := kind.range (integerAt low numberOffset) (integerAt high numberOffset)
    let taken := kind.range (fitted (integerAt low numberOffset)) (fitted (integerAt high numberOffset))
    (¬ LegalRange taken → ∃ reason, answer (handshake m) = .error (.badMessage reason)) ∧
    (LegalRange taken → answer (handshake m) = .ok () ∧
      ∃ p, (final (handshake m)).device.state = some (.pedal p) ∧
        p.first = taken.1 ∧ p.count = taken.2 - taken.1 ∧
        (p.Covers written ↔ taken = written ∧ written.2 ≤ DevicePath.idBound) ∧
        ((∀ dump : Bytes, dump.IsMessage → ∀ item ∈ Presets.items p (Preset.ofDump dump),
          item.id < DevicePath.idBound) ↔ taken.2 ≤ DevicePath.idBound)) := by
  intro written taken
  obtain ⟨replies, ending, converses, verdict⟩ := identify_concludes framed
  obtain ⟨rfl, rfl, -⟩ := heard.unique converses
  have read : kind.range (numberAt low numberOffset) (numberAt high numberOffset) = taken := by
    rw [numberAt_eq, numberAt_eq]
  cases identified : identify m.device.link with
  | error e l' =>
    rw [identified] at verdict
    have failed : answer (handshake m) = .error e := by
      rw [handshake_of_error identified]
      rfl
    cases verdict with
    | notFound why => cases why
    | broken broken => cases broken
    | badMessage why =>
      have illegal := why.illegal known
      rw [read] at illegal
      exact ⟨fun _ => ⟨_, failed⟩, fun legal => absurd legal illegal⟩
  | ok pair l' =>
    obtain ⟨identity, p⟩ := pair
    rw [identified] at verdict
    cases verdict with
    | matched complete matched =>
      cases matched with
      | intro ofPedal device data same legal first count unread =>
        rw [same.unique known, read] at legal first count
        refine ⟨fun illegal => absurd legal illegal, fun _ => ?_⟩
        rw [handshake_of_ok identified]
        refine ⟨rfl, p, rfl, first, count, ?_, ?_⟩
        · constructor
          · intro covers
            have firsts := covers.first
            have counts := covers.count
            refine ⟨Prod.ext (by omega) (by omega), covers.bounded⟩
          · rintro ⟨same, bounded⟩
            rw [same] at legal first count
            exact ⟨first, count, legal.first_nonneg, legal.ordered, bounded⟩
        · have small := legal.first_lt
          rw [Presets.items_bounded (by omega)]
          omega

def hears : List Question → Link P → Option (List Bytes)
  | [], _ => some []
  | q :: qs, l =>
    match q.put l with
    | .ok reply l' => (hears qs l').map (reply :: ·)
    | .error _ _ => none

theorem converses_of_hears {qs : List Question} {l : Link P} {replies : List Bytes}
    (heard : hears qs l = some replies)
    (accepted : List.Forall₂ (fun q reply => q.accepts reply) qs replies) :
    ∃ l', Converses qs l replies .complete l' := by
  induction accepted generalizing l with
  | nil => exact ⟨l, .complete l⟩
  | cons accepted _ ih =>
    unfold hears at heard
    split at heard
    · rename_i given l₁ put
      obtain ⟨rest, later, same⟩ := Option.map_eq_some_iff.mp heard
      cases same
      obtain ⟨l', converses⟩ := ih later
      exact ⟨l', .accepted put accepted converses⟩
    · cases heard

theorem long_said (code : UInt8) (text : String) : Long (said code text) := by
  unfold Long said
  simp only [List.length_append, List.length_cons, List.length_nil]
  omega

def h9Switches : String := "'000000000000000000'"

def h9Replies (low high : String) : List Bytes :=
  [identitySaid, said 0x31 "0000 V5.1.0", said 0x3B ("01" ++ h9Switches), said 0x31 ("0206" ++ low),
    said 0x31 ("020A" ++ high)]

theorem h9_known : Switches (said 0x3B ("01" ++ h9Switches)) .h9 := .h9 (by decide +kernel)

theorem h9_converses (low high : String)
    (heard : hears questions (final (Link.drain (answering h9Switches low high).device.link)) =
      some (h9Replies low high)) :
    ∃ l, Converses questions (final (Link.drain (answering h9Switches low high).device.link))
      (h9Replies low high) .complete l := by
  have pedal : OfPedal #v[5, 1, 0, 7] identitySaid :=
    ⟨by decide, 0, [0x1C], [0, 0xF7], .short (by decide), rfl⟩
  apply converses_of_hears heard
  exact .cons ⟨_, pedal⟩ (.cons (long_said _ _) (.cons ⟨long_said _ _, _, h9_known⟩
    (.cons (long_said _ _) (.cons (long_said _ _) .nil))))

/-- The numbers 0 and `2 ^ 63` are taken for the empty range at 0, and a range of slots may end
behind the ids of 32 bits. Smaller numbers are taken as they are, and refused if they are in
disorder. -/
theorem handshake_slots_answering :
    let taken (low high : String) (p : Pedal) :=
      (final (handshake (answering h9Switches low high))).device.state = some (.pedal p)
    (∃ p, taken "0" "99" p ∧ p.Covers (0, 99)) ∧
    (∃ reason, answer (handshake (answering h9Switches "5" "2")) = .error (.badMessage reason)) ∧
    (∃ p, taken "0" "9223372036854775808" p ∧ ¬ p.Covers (0, 9223372036854775808)) ∧
    (∃ p, taken "4294967295" "8589934590" p ∧
      ¬ ∀ dump : Bytes, dump.IsMessage → ∀ item ∈ Presets.items p (Preset.ofDump dump),
        item.id < DevicePath.idBound) := by
  intro taken
  have slots (low high : String)
      (heard : hears questions (final (Link.drain (answering h9Switches low high).device.link)) =
        some (h9Replies low high)) :=
    (h9_converses low high heard).elim fun _ converses =>
      handshake_slots (m := answering h9Switches low high) (answering_framed _ _ _) converses h9_known
  refine ⟨?_, ?_, ?_, ?_⟩
  · have low : integerAt (said 0x31 ("0206" ++ "0")) numberOffset = 0 := by decide +kernel
    have high : integerAt (said 0x31 ("020A" ++ "99")) numberOffset = 99 := by decide +kernel
    obtain ⟨-, legal⟩ := slots "0" "99" (by decide +kernel)
    rw [low, high] at legal
    obtain ⟨-, p, state, -, -, covers, -⟩ := legal ⟨by decide, by decide, by decide, by decide⟩
    exact ⟨p, state, covers.mpr ⟨rfl, by decide⟩⟩
  · have low : integerAt (said 0x31 ("0206" ++ "5")) numberOffset = 5 := by decide +kernel
    have high : integerAt (said 0x31 ("020A" ++ "2")) numberOffset = 2 := by decide +kernel
    obtain ⟨illegal, -⟩ := slots "5" "2" (by decide +kernel)
    rw [low, high] at illegal
    exact illegal fun legal => absurd legal.ordered (by decide)
  · have low : integerAt (said 0x31 ("0206" ++ "0")) numberOffset = 0 := by decide +kernel
    have high : integerAt (said 0x31 ("020A" ++ "9223372036854775808")) numberOffset =
        9223372036854775808 := by decide +kernel
    obtain ⟨-, legal⟩ := slots "0" "9223372036854775808" (by decide +kernel)
    rw [low, high] at legal
    obtain ⟨-, p, state, -, -, covers, -⟩ := legal ⟨by decide, by decide, by decide, by decide⟩
    exact ⟨p, state, fun covered => absurd (covers.mp covered).1 (by decide)⟩
  · have low : integerAt (said 0x31 ("0206" ++ "4294967295")) numberOffset = 4294967295 := by
      decide +kernel
    have high : integerAt (said 0x31 ("020A" ++ "8589934590")) numberOffset = 8589934590 := by
      decide +kernel
    obtain ⟨-, legal⟩ := slots "4294967295" "8589934590" (by decide +kernel)
    rw [low, high] at legal
    obtain ⟨-, p, state, -, -, -, bounded⟩ := legal ⟨by decide, by decide, by decide, by decide⟩
    exact ⟨p, state, fun listed => absurd (bounded.mp listed) (by decide)⟩

end MidiStorage.Eventide
