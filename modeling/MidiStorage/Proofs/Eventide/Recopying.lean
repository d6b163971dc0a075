import MidiStorage.Proofs.Eventide.Retagging

namespace MidiStorage.Eventide

open MidiStorage.Action

def InWindow (data : Bytes) : Prop := minLength < data.length ∧ data.length ≤ maxLength

instance (data : Bytes) : Decidable (InWindow data) := inferInstanceAs (Decidable (_ ∧ _))

/-- A dump that every slot of every pedal takes. -/
structure Storable (data : Bytes) : Prop where
  window : InWindow data
  dump : ∃ d body, data = 0xF0 :: 0x1C :: 0x70 :: d :: dumpCode :: body ∧ 0x20 ∈ body

def sentTo (device : UInt8) (id : Nat) (data : Bytes) : Bytes := slotStart device id ++ fromBlank data

def badLength (data : Bytes) : Failure := .badMessage ("bad preset length " ++ toString data.length)

section Retarget

variable {data message : Bytes} {device : UInt8} {id : Nat}

theorem retarget_eq_ok_iff :
    retarget data device id = .ok message ↔ Storable data ∧ message = sentTo device id data := by
  rw [retarget_ok_iff]
  constructor
  · rintro ⟨long, short, d, body, rfl, blank, rfl⟩
    exact ⟨⟨⟨long, short⟩, d, body, rfl, blank⟩, rfl⟩
  · rintro ⟨⟨⟨long, short⟩, d, body, rfl, blank⟩, rfl⟩
    exact ⟨long, short, d, body, rfl, blank, rfl⟩

theorem Storable.sent (storable : Storable data) (device : UInt8) (id : Nat) :
    retarget data device id = .ok (sentTo device id data) :=
  retarget_eq_ok_iff.mpr ⟨storable, rfl⟩

theorem retarget_outside (outside : ¬ InWindow data) (device : UInt8) (id : Nat) :
    retarget data device id = .error (badLength data) := by
  have wrong : maxLength < data.length ∨ data.length ≤ minLength := by
    unfold InWindow at outside
    omega
  unfold retarget
  rw [if_pos wrong]
  rfl

end Retarget

section Sent

variable {data : Bytes} (storable : Storable data)

include storable

theorem Storable.exists_blank : ∃ behind, fromBlank data = 0x20 :: behind := by
  obtain ⟨front, behind, -, -, rest⟩ := exists_fromBlank (storable.sent 0 0)
  exact ⟨behind, rest⟩

theorem Storable.fromBlank_sentTo (device : UInt8) (id : Nat) :
    fromBlank (sentTo device id data) = fromBlank data := by
  obtain ⟨behind, rest⟩ := storable.exists_blank
  -- the first blank is the one that was kept, as the tag has none
  have tagless : 0x20 ∉ slotTag id := not_mem_slotTag id (by decide)
  rw [sentTo, rest]
  exact dropWhile_to_blank tagless behind

theorem Storable.sentTo_sentTo (device device' : UInt8) (id id' : Nat) :
    sentTo device' id' (sentTo device id data) = sentTo device' id' data := by
  rw [sentTo, storable.fromBlank_sentTo, sentTo]

theorem Storable.sentTo_iff (device : UInt8) (id : Nat) :
    Storable (sentTo device id data) ↔ InWindow (sentTo device id data) := by
  constructor
  · exact Storable.window
  · intro window
    obtain ⟨behind, rest⟩ := storable.exists_blank
    refine ⟨window, device, slotTag id ++ fromBlank data, rfl, ?_⟩
    rw [rest]
    exact List.mem_append_right _ (List.mem_cons_self ..)

theorem Storable.retarget_sentTo (device device' : UInt8) (id id' : Nat) :
    retarget (sentTo device id data) device' id' =
      if InWindow (sentTo device id data) then .ok (sentTo device' id' data)
      else .error (badLength (sentTo device id data)) := by
  split_ifs with window
  · rw [((storable.sentTo_iff device id).mpr window).sent, storable.sentTo_sentTo]
  · exact retarget_outside window device' id'

end Sent

/-- Sends a dump to slot after slot, to each what was sent to the one before. -/
def sendOn (data : Bytes) (stops : List (UInt8 × Nat)) : Except Failure Bytes :=
  stops.foldlM (fun data stop => retarget data stop.1 stop.2) data

/-- The first of the stops whose message has a length that is not taken any further. -/
def obstacle? (data : Bytes) (stops : List (UInt8 × Nat)) : Option (UInt8 × Nat) :=
  stops.find? fun stop => ¬ InWindow (sentTo stop.1 stop.2 data)

theorem sendOn_cons (data : Bytes) (stop : UInt8 × Nat) (stops : List (UInt8 × Nat)) :
    sendOn data (stop :: stops) = (retarget data stop.1 stop.2).bind fun sent => sendOn sent stops := rfl

theorem sendOn_outside {data : Bytes} (outside : ¬ InWindow data) {stops : List (UInt8 × Nat)}
    (going : stops ≠ []) : sendOn data stops = .error (badLength data) := by
  cases stops with
  | nil => exact absurd rfl going
  | cons stop stops =>
    rw [sendOn_cons, retarget_outside outside]
    rfl

theorem obstacle?_sentTo {data : Bytes} (storable : Storable data) (device : UInt8) (id : Nat)
    (stops : List (UInt8 × Nat)) : obstacle? (sentTo device id data) stops = obstacle? data stops := by
  simp only [obstacle?, storable.sentTo_sentTo]

theorem sendOn_storable {data : Bytes} (storable : Storable data) (stops : List (UInt8 × Nat))
    (last : UInt8 × Nat) :
    sendOn data (stops ++ [last]) = match obstacle? data stops with
      | none => .ok (sentTo last.1 last.2 data)
      | some stop => .error (badLength (sentTo stop.1 stop.2 data)) := by
  -- what was sent to the first stop does on the rest of the way what the original would do there
  induction stops generalizing data with
  | nil =>
    rw [List.nil_append, sendOn_cons, storable.sent]
    rfl
  | cons stop stops ih =>
    obtain ⟨device, id⟩ := stop
    have first : sendOn data ((device, id) :: stops ++ [last]) =
        sendOn (sentTo device id data) (stops ++ [last]) := by
      rw [List.cons_append, sendOn_cons, storable.sent]
      rfl
    rw [first]
    by_cases window : InWindow (sentTo device id data)
    · have onward : obstacle? data ((device, id) :: stops) = obstacle? data stops := by
        simp [obstacle?, window]
      rw [ih ((storable.sentTo_iff device id).mpr window), obstacle?_sentTo storable, onward]
      simp only [storable.sentTo_sentTo]
    · have here : obstacle? data ((device, id) :: stops) = some (device, id) := by
        simp [obstacle?, window]
      rw [sendOn_outside window (by simp), here]

namespace Presets

variable {data data' : Bytes}

theorem upload_congr {P : Type} [Port P]
    (same : ∀ device id, retarget data device id = retarget data' device id) (path : String) :
    upload (P := P) path data = upload path data' := by
  unfold upload store
  simp only [same]

end Presets

/-- What was sent to a slot is sent on as the original would be, to any slot of any pedal, unless
its length is outside the window. On a longer way the first such message is the only obstacle. -/
theorem retarget_absorbs {data message : Bytes} {device : UInt8} {id : Nat}
    (sent : retarget data device id = .ok message) :
    (∀ device' id', ∃ direct, retarget data device' id' = .ok direct ∧
      retarget message device' id' =
        if InWindow message then .ok direct else .error (badLength message)) ∧
    (∀ stops device' id',
      sendOn data (stops ++ [(device', id')]) = match obstacle? data stops with
        | none => retarget data device' id'
        | some stop => .error (badLength (sentTo stop.1 stop.2 data))) ∧
    (InWindow message → ∀ (P : Type) [Port P] (path : String),
      Presets.upload (P := P) path message = Presets.upload path data) := by
  obtain ⟨storable, rfl⟩ := retarget_eq_ok_iff.mp sent
  have again (device' : UInt8) (id' : Nat) := storable.retarget_sentTo device device' id id'
  refine ⟨?_, ?_, ?_⟩
  · intro device' id'
    exact ⟨sentTo device' id' data, storable.sent device' id', again device' id'⟩
  · intro stops device' id'
    rw [sendOn_storable storable, storable.sent]
  · intro window P _ path
    apply Presets.upload_congr
    intro device' id'
    rw [again, if_pos window, storable.sent]

def longestDump : Bytes := 0xF0 :: 0x1C :: 0x70 :: 0 :: dumpCode :: slotTag 0 ++ List.replicate 248 0x20

/-- A preset that went to slots 1, 99 and 7 of three pedals is the one that goes there directly. Of
the longest dumps, slot 99 is the end of the way: its tag takes two bytes more. -/
theorem sent_on_through_slots :
    sendOn Presets.leadDump [(5, 1), (0, 99), (3, 7)] = retarget Presets.leadDump 3 7 ∧
    sendOn longestDump [(5, 1), (0, 99)] = retarget longestDump 0 99 ∧
    sendOn longestDump [(5, 1), (0, 99), (3, 7)] = .error (badLength (sentTo 0 99 longestDump)) ∧
    (sentTo 0 99 longestDump).length = 258 := by
  have lead : retarget Presets.leadDump 0 0 = .ok (sentTo 0 0 Presets.leadDump) := by decide +kernel
  have longest : retarget longestDump 0 0 = .ok (sentTo 0 0 longestDump) := by decide +kernel
  obtain ⟨-, through, -⟩ := retarget_absorbs lead
  obtain ⟨-, far, -⟩ := retarget_absorbs longest
  have free : obstacle? Presets.leadDump [(5, 1), (0, 99)] = none := by decide +kernel
  have near : obstacle? longestDump [(5, 1)] = none := by decide +kernel
  have stuck : obstacle? longestDump [(5, 1), (0, 99)] = some (0, 99) := by decide +kernel
  refine ⟨?_, ?_, ?_, by decide +kernel⟩
  · have way := through [(5, 1), (0, 99)] 3 7
    rw [free] at way
    exact way
  · have way := far [(5, 1)] 0 99
    rw [near] at way
    exact way
  · have way := far [(5, 1), (0, 99)] 3 7
    rw [stuck] at way
    exact way

end MidiStorage.Eventide
