import Mathlib.Tactic.Common
import MidiStorage.Exchange
import MidiStorage.Proofs.Action

namespace MidiStorage

namespace Bytes

theorem slicesWithin_flatten {size : Nat} (positive : 0 < size) (rounds : Nat) (bytes : Bytes)
    (enough : bytes.length ≤ rounds) : (slicesWithin size rounds bytes).flatten = bytes := by
  induction rounds generalizing bytes with
  | zero =>
    have empty : bytes = [] := List.length_eq_zero_iff.mp (by omega)
    rw [empty, slicesWithin, List.flatten_nil]
  | succ rounds ih =>
    cases bytes with
    | nil => rfl
    | cons b rest =>
      have fewer : ((b :: rest).drop size).length ≤ rounds := by
        simp only [List.length_drop, List.length_cons] at enough ⊢
        omega
      rw [slicesWithin, List.flatten_cons, ih _ fewer, List.take_append_drop]
      exact List.cons_ne_nil b rest

theorem slices_flatten {size : Nat} (positive : 0 < size) (bytes : Bytes) :
    (bytes.slices size).flatten = bytes :=
  slicesWithin_flatten positive bytes.length bytes (Nat.le_refl _)

theorem slicesWithin_ne_nil {size : Nat} (positive : 0 < size) (rounds : Nat) (bytes : Bytes) :
    [] ∉ slicesWithin size rounds bytes := by
  induction rounds generalizing bytes with
  | zero => simp [slicesWithin]
  | succ rounds ih =>
    cases bytes with
    | nil => simp [slicesWithin]
    | cons b rest =>
      have full : (b :: rest).take size ≠ [] := by
        cases size with
        | zero => cases positive
        | succ size => simp
      intro member
      rw [slicesWithin] at member
      · rcases List.mem_cons.mp member with same | later
        · exact full same.symm
        · exact ih _ later
      · exact List.cons_ne_nil b rest

end Bytes

namespace Link

variable {P : Type}

/-- All the bytes were accepted by the end of a successful send, and not all of them by the end of a
failed one. -/
def Sent {α : Type} (bytes : Bytes) (l : Link P) : EStateM.Result Failure (Link P) α → Prop
  | .ok _ l' => l'.accepted = l.accepted ++ bytes
  | .error _ l' => ∃ k < bytes.length, l'.accepted = l.accepted ++ bytes.take k

def taken (bytes : Bytes) : Except PortError Nat → Bytes
  | .ok n => bytes.take n
  | .error _ => []

theorem writeOnce_apply [Port P] (bytes : Bytes) (l : Link P) :
    ∃ l', writeOnce bytes l = .ok (Port.write l.port bytes).result l' ∧
      l'.accepted = l.accepted ++ taken bytes (Port.write l.port bytes).result := by
  refine ⟨_, rfl, ?_⟩
  cases result : (Port.write l.port bytes).result with
  | error e => simp [taken, afterTurn, accepted]
  | ok n =>
    cases n with
    | zero => simp [taken, afterTurn, accepted]
    | succ n => simp [taken, afterTurn, accepted]

theorem Sent.of_first {α : Type} {bytes : Bytes} {l l₁ : Link P} {n : Nat}
    {result : EStateM.Result Failure (Link P) α} (first : l₁.accepted = l.accepted ++ bytes.take n)
    (rest : Sent (bytes.drop n) l₁ result) : Sent bytes l result := by
  cases result with
  | ok x l' =>
    change l'.accepted = l.accepted ++ bytes
    rw [rest, first, List.append_assoc, List.take_append_drop]
  | error e l' =>
    obtain ⟨k, inside, accepted⟩ := rest
    rw [List.length_drop] at inside
    refine ⟨n + k, by omega, ?_⟩
    rw [accepted, first, List.append_assoc, List.take_add]

theorem Sent.nothing {α : Type} {bytes : Bytes} (some : bytes ≠ []) {l l' : Link P} (e : Failure)
    (same : l'.accepted = l.accepted) :
    Sent bytes l (.error e l' : EStateM.Result Failure (Link P) α) :=
  ⟨0, List.length_pos_iff.mpr some, by simp [same]⟩

theorem sendRounds_sent [Port P] (rounds : Nat) (bytes : Bytes) (l : Link P) :
    Sent bytes l (sendRounds rounds bytes l) := by
  induction rounds generalizing bytes l with
  | zero =>
    cases bytes with
    | nil => simp [sendRounds, Sent]
    | cons b rest => exact Sent.nothing (List.cons_ne_nil b rest) _ rfl
  | succ rounds ih =>
    cases bytes with
    | nil => simp [sendRounds, Sent]
    | cons b rest =>
      obtain ⟨l₁, write, first⟩ := writeOnce_apply (b :: rest) l
      rw [sendRounds, Action.bind_of_ok write]
      cases result : (Port.write l.port (b :: rest)).result with
      | ok n =>
        rw [result] at first
        cases n with
        | zero => exact Sent.nothing (List.cons_ne_nil b rest) _ (by simpa [taken] using first)
        | succ n => exact Sent.of_first first (ih _ l₁)
      | error e =>
        rw [result] at first
        have same : l₁.accepted = l.accepted := by simpa [taken] using first
        dsimp only
        split_ifs with interrupted
        -- an interrupted write took nothing, so what is left is the whole
        · have again : Sent ((b :: rest).drop 0) l₁ (sendRounds rounds (b :: rest) l₁) := ih _ l₁
          exact Sent.of_first (by simpa using same) again
        · exact Sent.nothing (List.cons_ne_nil b rest) _ same

theorem send_sent [Port P] (bytes : Bytes) (l : Link P) : Sent bytes l (send bytes l) := by
  have sent := sendRounds_sent (bytes.length + Port.interruptsLeft l.port) bytes l
  rw [send, Action.bind_of_ok (Action.get_apply l), Action.bind_apply]
  cases result : sendRounds (bytes.length + Port.interruptsLeft l.port) bytes l with
  | ok x l' =>
    rw [result] at sent
    exact sent
  | error e l' =>
    rw [result] at sent
    exact sent

theorem Sent.then {α β : Type} {left right : Bytes} {l l₁ : Link P}
    {first : EStateM.Result Failure (Link P) α} {result : EStateM.Result Failure (Link P) β}
    (sent : Sent left l first) (ok : ∃ x, first = .ok x l₁) (rest : Sent right l₁ result) :
    Sent (left ++ right) l result := by
  obtain ⟨x, rfl⟩ := ok
  have first : l₁.accepted = l.accepted ++ (left ++ right).take left.length := by
    rw [List.take_left]
    exact sent
  apply Sent.of_first first
  rw [List.drop_left]
  exact rest

theorem Sent.cut {α β : Type} {left right : Bytes} {l l' : Link P} {e : Failure}
    (sent : Sent left l (.error e l' : EStateM.Result Failure (Link P) α)) :
    Sent (left ++ right) l (.error e l' : EStateM.Result Failure (Link P) β) := by
  obtain ⟨k, inside, accepted⟩ := sent
  refine ⟨k, ?_, ?_⟩
  · rw [List.length_append]
    omega
  · rw [accepted, List.take_append_of_le_length (Nat.le_of_lt inside)]

def Stopped (watched : Bool) (l : Link P) : Prop := watched = true ∧ l.run.job.active = false

theorem check_of_stopped {watched : Bool} {l : Link P} (stopped : Stopped watched l) :
    check watched l = .error .cancelled l := by
  obtain ⟨rfl, inactive⟩ := stopped
  simp [check, onRun, Run.check, Action.within, Action.bind_apply, inactive]

theorem not_stopped_unwatched (l : Link P) : ¬ Stopped false l :=
  fun stopped => Bool.false_ne_true stopped.1

theorem not_stopped_of_active {l : Link P} (active : l.run.job.active = true) (watched : Bool) :
    ¬ Stopped watched l := by
  rintro ⟨-, inactive⟩
  rw [active] at inactive
  cases inactive

theorem check_of_not_stopped {watched : Bool} {l : Link P} (going : ¬ Stopped watched l) :
    check watched l = .ok () l := by
  cases watched <;> cases active : l.run.job.active <;>
    simp_all [Stopped, check, onRun, Run.check, Action.within, Action.bind_apply]

end Link

namespace Exchange

variable {P : Type}

theorem sendSlices_sent [Port P] (watched : Bool) (slices : List Bytes) (full : [] ∉ slices)
    (l : Link P) : Link.Sent slices.flatten l (sendSlices watched slices l) := by
  induction slices generalizing l with
  | nil => simp [sendSlices, Link.Sent]
  | cons slice rest ih =>
    rw [List.mem_cons, not_or] at full
    obtain ⟨some, full⟩ := full
    rw [sendSlices, List.flatten_cons]
    by_cases stopped : Link.Stopped watched l
    · rw [Action.bind_of_error (Link.check_of_stopped stopped)]
      have left : slice ++ rest.flatten ≠ [] := by
        intro empty
        exact some (List.append_eq_nil_iff.mp empty).1.symm
      exact Link.Sent.nothing left _ rfl
    · rw [Action.bind_of_ok (Link.check_of_not_stopped stopped)]
      have sent := Link.send_sent slice l
      cases result : Link.send slice l with
      | ok n l₁ =>
        rw [result] at sent
        rw [Action.bind_of_ok result]
        exact sent.then ⟨n, rfl⟩ (ih full l₁)
      | error e l₁ =>
        rw [result] at sent
        rw [Action.bind_of_error result]
        exact sent.cut

theorem sendSlices_message [Port P] (watched : Bool) (message : Bytes) (l : Link P) :
    Link.Sent message l (sendSlices watched (message.slices Transfer.sliceSize) l) := by
  have positive : 0 < Transfer.sliceSize := by decide
  have sent := sendSlices_sent watched (message.slices Transfer.sliceSize)
    (Bytes.slicesWithin_ne_nil positive _ _) l
  rwa [Bytes.slices_flatten positive] at sent

end Exchange

end MidiStorage
