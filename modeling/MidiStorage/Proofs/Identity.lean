import MidiStorage.Identity
import MidiStorage.Proofs.Framing.Grammar

namespace MidiStorage.Identity

inductive Manufacturer : Bytes → Vector UInt8 3 → Prop
  | short {c : UInt8} (nonzero : c ≠ 0) : Manufacturer [c] #v[c, 0, 0]
  | long {c₁ c₂ : UInt8} : Manufacturer [0, c₁, c₂] #v[0, c₁, c₂]

def Answers (i : Identity) (reply : Bytes) : Prop :=
  ∃ device manufacturer rest, Manufacturer manufacturer i.company ∧
    reply = 0xF0 :: 0x7E :: device :: 0x06 :: 0x02 ::
      (manufacturer ++ (i.family.toList ++ (i.model.toList ++ (i.version.toList ++ rest))))

theorem ofCodes_ok {company : Vector UInt8 3} {codes : Bytes} {i : Identity}
    (read : ofCodes company codes = .ok i) :
    i.company = company ∧
      ∃ rest, codes = i.family.toList ++ (i.model.toList ++ (i.version.toList ++ rest)) := by
  unfold ofCodes at read
  split at read
  · cases read
    exact ⟨rfl, _, rfl⟩
  · cases read

theorem ofCodes_codes (i : Identity) (rest : Bytes) :
    ofCodes i.company (i.family.toList ++ (i.model.toList ++ (i.version.toList ++ rest))) = .ok i := by
  obtain ⟨company, ⟨⟨family⟩, familySize⟩, ⟨⟨model⟩, modelSize⟩, ⟨⟨version⟩, versionSize⟩⟩ := i
  match family, familySize, model, modelSize, version, versionSize with
  | [_, _], _, [_, _], _, [_, _, _, _], _ => rfl

theorem ofPayload_ok {payload : Bytes} {i : Identity} (read : ofPayload payload = .ok i) :
    ∃ manufacturer rest, Manufacturer manufacturer i.company ∧
      payload = manufacturer ++ (i.family.toList ++ (i.model.toList ++ (i.version.toList ++ rest))) := by
  unfold ofPayload at read
  split at read
  · obtain ⟨company, rest, rfl⟩ := ofCodes_ok read
    rw [company]
    exact ⟨_, rest, .long, rfl⟩
  · cases read
  · rename_i c codes _ short
    obtain ⟨company, rest, rfl⟩ := ofCodes_ok read
    have nonzero : c ≠ 0 := by
      rintro rfl
      exact short rfl
    rw [company]
    exact ⟨_, rest, .short nonzero, rfl⟩
  · cases read

theorem ofReply_ok_iff {reply : Bytes} {i : Identity} : ofReply reply = .ok i ↔ i.Answers reply := by
  constructor
  · intro read
    unfold ofReply at read
    split at read
    · split_ifs at read with inquiry
      obtain ⟨manufacturer, rest, known, rfl⟩ := ofPayload_ok read
      subst inquiry
      exact ⟨_, manufacturer, rest, known, rfl⟩
    · cases read
  · rintro ⟨device, manufacturer, rest, known, rfl⟩
    have codes := ofCodes_codes i rest
    change ofPayload _ = _
    generalize i.company = company at known codes
    cases known with
    | long => exact codes
    | short nonzero =>
      unfold ofPayload
      split
      · rename_i same
        exact absurd (List.cons.inj same).1 nonzero
      · rename_i same
        exact absurd (List.cons.inj same).1 nonzero
      · rename_i same
        obtain ⟨rfl, rfl⟩ := List.cons.inj same
        exact codes
      · rename_i same
        cases same

def wire (device : UInt8) (manufacturer : Bytes) (i : Identity) : Bytes :=
  0x7E :: device :: 0x06 :: 0x02 ::
    (manufacturer ++ (i.family.toList ++ (i.model.toList ++ i.version.toList)))

/-- The layout in full: the codes, any further data, and the end of the message. -/
def Replies (i : Identity) (reply : Bytes) : Prop :=
  ∃ device manufacturer more, Manufacturer manufacturer i.company ∧
    reply = 0xF0 :: (wire device manufacturer i ++ more ++ [0xF7])

/-- The end of the message stands where the last byte of the version belongs. -/
def Clipped (i : Identity) (reply : Bytes) : Prop :=
  ∃ device manufacturer, Manufacturer manufacturer i.company ∧ i.version[3] = 0xF7 ∧
    reply = 0xF0 :: wire device manufacturer i

def codes (i : Identity) : Bytes :=
  i.company.toList ++ (i.family.toList ++ (i.model.toList ++ i.version.toList))

theorem answers_iff {i : Identity} {reply : Bytes} : i.Answers reply ↔ ∃ device manufacturer rest,
    Manufacturer manufacturer i.company ∧ reply = 0xF0 :: (wire device manufacturer i ++ rest) := by
  simp only [Answers, wire, List.cons_append, List.append_assoc]

theorem exists_wire_concat (device : UInt8) (manufacturer : Bytes) (i : Identity) :
    ∃ front, wire device manufacturer i = front ++ [i.version[3]] := by
  obtain ⟨company, family, model, ⟨⟨version⟩, versionSize⟩⟩ := i
  match version, versionSize with
  | [v₀, v₁, v₂, v₃], _ =>
    refine ⟨0x7E :: device :: 0x06 :: 0x02 ::
      (manufacturer ++ (family.toList ++ (model.toList ++ [v₀, v₁, v₂]))), ?_⟩
    simp [wire]

theorem mem_codes {device : UInt8} {manufacturer : Bytes} {i : Identity}
    (known : Manufacturer manufacturer i.company) {b : UInt8} (member : b ∈ i.codes) :
    b = 0 ∨ b ∈ wire device manufacturer i := by
  have company : b ∈ i.company.toList → b = 0 ∨ b ∈ manufacturer := by
    generalize i.company = company at known
    cases known with
    | short nonzero =>
      intro kept
      change b ∈ [_, 0, 0] at kept
      simp only [List.mem_cons, List.not_mem_nil, or_false] at kept ⊢
      rcases kept with rfl | rfl | rfl
      · exact .inr rfl
      · exact .inl rfl
      · exact .inl rfl
    | long => exact .inr
  rw [codes, List.mem_append] at member
  rcases member with kept | other
  · rcases company kept with zero | inside
    · exact .inl zero
    · right
      simp only [wire, List.mem_cons, List.mem_append, inside, true_or, or_true]
  · right
    simp only [wire, List.mem_cons, List.mem_append] at other ⊢
    simp only [other, or_true]

section Message

variable {i : Identity} {m : Bytes}

theorem ofReply_message_iff (message : m.IsMessage) :
    ofReply m = .ok i ↔ i.Replies m ∨ i.Clipped m := by
  rw [ofReply_ok_iff, answers_iff]
  constructor
  · rintro ⟨device, manufacturer, rest, known, rfl⟩
    rcases List.eq_nil_or_concat rest with rfl | ⟨more, last, rfl⟩
    · right
      obtain ⟨front, wired⟩ := exists_wire_concat device manufacturer i
      rw [List.append_nil] at message ⊢
      have ends : i.version[3] = Bytes.sysexEnd := by
        rw [wired] at message
        exact message.inside.1
      exact ⟨device, manufacturer, known, ends, rfl⟩
    · left
      rw [List.concat_eq_append, ← List.append_assoc] at message ⊢
      obtain rfl := message.inside.1
      exact ⟨device, manufacturer, more, known, rfl⟩
  · rintro (⟨device, manufacturer, more, known, rfl⟩ | ⟨device, manufacturer, known, -, rfl⟩)
    · exact ⟨device, manufacturer, more ++ [0xF7], known, by rw [List.append_assoc]⟩
    · exact ⟨device, manufacturer, [], known, by rw [List.append_nil]⟩

theorem Replies.data (replies : i.Replies m) (message : m.IsMessage) :
    ∀ b ∈ i.codes, Bytes.isData b = true := by
  obtain ⟨device, manufacturer, more, known, rfl⟩ := replies
  have data := message.inside.2
  intro b member
  rcases mem_codes known member with rfl | inside
  · decide
  · exact data b (List.mem_append_left more inside)

/-- A message is read as an identity if it has the layout in full, and then all codes are data
bytes of the message. One without the last byte of the version, which is no such reply, is read
as well. -/
theorem message_read_iff (message : m.IsMessage) :
    (∀ i : Identity, ofReply m = .ok i ↔ i.Replies m ∨ i.Clipped m) ∧
      (∀ i : Identity, i.Replies m → ∀ b ∈ i.codes, Bytes.isData b = true) ∧
      ∀ i : Identity, i.Clipped m → ∀ j : Identity, ¬ j.Replies m := by
  refine ⟨fun i => ofReply_message_iff message, fun i replies => replies.data message, ?_⟩
  intro i clipped j replies
  have same : i = j := by
    have read := (ofReply_message_iff message).mpr (.inr clipped)
    rw [(ofReply_message_iff message).mpr (.inl replies)] at read
    exact (Except.ok.inj read).symm
  obtain ⟨device, manufacturer, known, ends, -⟩ := clipped
  subst same
  have last : i.version[3] ∈ i.codes := by simp [codes]
  have data := replies.data message _ last
  rw [ends] at data
  exact absurd data (by decide)

end Message

def versionReply (version : Bytes) : Bytes :=
  0xF0 :: ([0x7E, 0, 0x06, 0x02, 0x1C, 0, 0x06, 0x11, 0] ++ version) ++ [0xF7]

/-- With three bytes for its version the reply is taken for one of version 5.1.0.247. -/
theorem clipped_version_read :
    let codes (last : UInt8) : Identity := ⟨#v[0x1C, 0, 0], #v[0, 6], #v[0x11, 0], #v[5, 1, 0, last]⟩
    let clipped := versionReply [5, 1, 0]
    let full := versionReply [5, 1, 0, 7]
    (clipped.IsMessage ∧ ofReply clipped = .ok (codes 0xF7) ∧ ∀ i : Identity, ¬ i.Replies clipped) ∧
      full.IsMessage ∧ ofReply full = .ok (codes 7) ∧ (codes 7).Replies full ∧
        ∀ b ∈ (codes 7).codes, Bytes.isData b = true := by
  intro codes clipped full
  have short : clipped.IsMessage := Bytes.isMessage_of_data (by decide +kernel)
  have whole : full.IsMessage := Bytes.isMessage_of_data (by decide +kernel)
  have cut : (codes 0xF7).Clipped clipped := ⟨0, [0x1C], .short (by decide), rfl, rfl⟩
  have replies : (codes 7).Replies full := ⟨0, [0x1C], [], .short (by decide), rfl⟩
  obtain ⟨readShort, -, apart⟩ := message_read_iff short
  obtain ⟨readWhole, data, -⟩ := message_read_iff whole
  exact ⟨⟨short, (readShort _).mpr (.inr cut), apart _ cut⟩, whole, (readWhole _).mpr (.inl replies),
    replies, data _ replies⟩

end MidiStorage.Identity
