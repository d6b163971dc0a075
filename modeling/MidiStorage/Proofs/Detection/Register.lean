import MidiStorage.Proofs.Detection.Search
import MidiStorage.Proofs.Layers

namespace MidiStorage.Detection

open MidiStorage.Action

variable {P : Type}

theorem drained_eq [Port P] (m : Mount P) :
    drained m =
      { m with device := { m.device with link := final (Link.drain m.device.link) } } := by
  rw [← Mount.final_onLink]
  unfold drained
  cases Mount.onLink Link.drain m <;> rfl

/-- A register that the port keeps of the handshakes called. Reading leaves it alone, and the
handshake at each position makes one entry of the mount that it meets. -/
structure Register [Port P] (dialects : List (Dialect P)) {E : Type} (view : P → List E)
    (entry : Nat → Mount P → E) : Prop where
  read (p : P) : view (Port.read p).port = view p
  handshake (k : Nat) (d : Dialect P) (m : Mount P) : dialects[k]? = some d →
    view (final (d.handshake m)).device.link.port = view m.device.link.port ++ [entry k m]

namespace Register

variable [Port P] {s : Search P} {E : Type} {view : P → List E} {entry : Nat → Mount P → E}

theorem drained (register : Register s.dialects view entry) (m : Mount P) :
    view (drained m).device.link.port = view m.device.link.port := by
  rw [drained_eq]
  exact Link.final_drain (I := fun l => view l.port = view m.device.link.port) rfl
    (fun _ _ same => same) fun l same => (register.read l.port).trans same

theorem reached (register : Register s.dialects view entry) (k : Nat) :
    view (s.reached k).device.link.port = view s.start.device.link.port ++
      (s.wantedBefore k).map fun j => entry j (s.reached j).forget := by
  unfold Search.wantedBefore
  induction k with
  | zero => exact (List.append_nil _).symm
  | succ k ih =>
    rw [s.reached_next, List.range_succ, List.filter_append, List.map_append, ← List.append_assoc,
      ← ih]
    cases here : s.dialects[k]? with
    | none =>
      have noone : ¬ s.WantsAt k := by
        rintro ⟨d, member, -⟩
        rw [here] at member
        cases member
      simp [noone]
    | some d =>
      by_cases wants : s.Wants d
      · have signed := register.handshake k d (s.reached k).forget here
        have wanted : s.WantsAt k := ⟨d, here, wants⟩
        simp only [Option.toList_some, List.foldl_cons, List.foldl_nil, Search.past, wants, ↓reduceIte,
          register.drained, signed, wanted, List.filter_cons_of_pos, List.filter_nil, List.map_cons,
          List.map_nil, decide_true]
        rfl
      · have skipped : ¬ s.WantsAt k := by
          rintro ⟨other, member, wanted⟩
          rw [here] at member
          cases member
          exact wants wanted
        simp [Search.past, wants, skipped]

theorem outcome (register : Register s.dialects view entry) :
    ∃ asked : List Nat, asked.Pairwise (· < ·) ∧ (∀ k, k ∈ asked ↔ s.Asks k) ∧
      view s.outcome.link.port = view s.start.device.link.port ++
        asked.map fun k => entry k (s.reached k).forget := by
  obtain ⟨k, reaches, ends⟩ := s.exists_ends
  have before := register.reached k
  by_cases asks : s.Asks k
  · obtain ⟨ascending, mem_iff⟩ := ends.asked_last reaches asks
    obtain ⟨d, here, port⟩ := ends.port_of_asks asks
    refine ⟨s.wantedBefore k ++ [k], ascending, mem_iff, ?_⟩
    have signed := register.handshake k d (s.reached k).forget here
    change view (final (s.attempt k d)).device.link.port =
      view (s.reached k).device.link.port ++ [entry k (s.reached k).forget] at signed
    rw [port, signed, before, List.map_append, List.append_assoc, List.map_singleton]
  · refine ⟨s.wantedBefore k, s.wantedBefore_ascending k, ends.asked_before reaches asks, ?_⟩
    rw [ends.port_of_quiet asks, before]

end Register

theorem open_lasting [Port P] : Link.Lasting (P := P) (·.closed = false) where
  run _ _ same := same
  read _ same := same
  push _ _ same := same
  pop _ same := same
  popAll _ same := same

/-- A handshake never closes an open port. -/
def KeepsOpen (d : Dialect P) : Prop := Preserves (·.device.link.closed = false) d.handshake

theorem drained_open [Port P] {m : Mount P} (before : m.device.link.closed = false) :
    (drained m).device.link.closed = false := by
  rw [drained_eq]
  exact Link.final_drain (I := fun l => l.closed = false) before open_lasting.run open_lasting.read

theorem Search.closed_iff [Port P] {s : Search P} (start : s.start.device.link.closed = false)
    (keep : ∀ d ∈ s.dialects, KeepsOpen d) :
    s.outcome.link.closed = true ↔ ∀ session, s.outcome ≠ .found session := by
  obtain ⟨k, -, ends⟩ := s.exists_ends
  have before : (s.reached k).device.link.closed = false := by
    refine Search.reached_induction (I := (·.device.link.closed = false)) start ?_ k
    intro m d member same
    unfold Search.past
    split_ifs with wants
    · exact drained_open (keep d member _ same)
    · exact same
  cases result : s.outcome with
  | failed cause l =>
    rw [result] at ends
    simp only [ne_eq, reduceCtorEq, not_false_eq_true, implies_true, iff_true]
    cases ends <;> rfl
  | found session =>
    rw [result] at ends
    cases ends with
    | found asks here matched =>
      have keeps := keep _ (List.mem_of_getElem? here)
      have after := Preserves.of_ok (s := (s.reached k).forget) keeps before matched
      constructor
      · intro closed
        exact absurd (closed.symm.trans after) (by decide)
      · intro never
        exact absurd rfl (never _)

end MidiStorage.Detection
