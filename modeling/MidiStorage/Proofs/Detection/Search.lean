import MidiStorage.Detection
import MidiStorage.Proofs.Transfer.Draining
import MidiStorage.Proofs.Transfer.Sending

namespace MidiStorage.Detection

open MidiStorage.Action

variable {P : Type}

def link : Detection P → Link P
  | .found session => session.mount.device.link
  | .failed _ l => l

def found? : Detection P → Option (Session P)
  | .found session => some session
  | .failed _ _ => none

theorem found?_eq_some {outcome : Detection P} {session : Session P} :
    outcome.found? = some session ↔ outcome = .found session := by
  cases outcome <;> simp [found?]

structure Search (P : Type) where
  dialects : List (Dialect P)
  wanted : Option String
  watched : Bool
  start : Mount P

namespace Search

def Wants (s : Search P) (d : Dialect P) : Prop := ∀ name ∈ s.wanted, d.name = name

instance (s : Search P) (d : Dialect P) : Decidable (s.Wants d) := by
  unfold Wants
  infer_instance

theorem wants_iff (s : Search P) (d : Dialect P) :
    s.Wants d ↔ s.wanted.any (· ≠ d.name) = false := by
  unfold Wants
  cases s.wanted with
  | none => simp
  | some name =>
    simp only [Option.mem_some_iff, forall_eq', Option.any_some, ne_eq, decide_not,
      Bool.not_eq_false', decide_eq_true_eq]
    exact eq_comm

def WantsAt (s : Search P) (k : Nat) : Prop := ∃ d ∈ s.dialects[k]?, s.Wants d

instance (s : Search P) (k : Nat) : Decidable (s.WantsAt k) := by
  unfold WantsAt
  infer_instance

def wantedBefore (s : Search P) (k : Nat) : List Nat := (List.range k).filter (s.WantsAt ·)

theorem wantedBefore_ascending (s : Search P) (k : Nat) : (s.wantedBefore k).Pairwise (· < ·) :=
  List.pairwise_lt_range.filter _

variable [Port P]

def outcome (s : Search P) : Detection P := search s.wanted s.watched s.dialects s.start

/-- The mount behind a dialect that did not end the search: one that is not wanted leaves it alone,
the handshake of any other is drained. -/
def past (s : Search P) (m : Mount P) (d : Dialect P) : Mount P :=
  if s.Wants d then drained (final (d.handshake m.forget)) else m

/-- The mount with which the search reaches a position, if nothing ended it before. -/
def reached (s : Search P) (k : Nat) : Mount P := (s.dialects.take k).foldl s.past s.start

def Stopped (s : Search P) (k : Nat) : Prop := Link.Stopped s.watched (s.reached k).device.link

def attempt (s : Search P) (k : Nat) (d : Dialect P) : EStateM.Result Failure (Mount P) Unit :=
  d.handshake (s.reached k).forget

/-- The search goes on behind a dialect that is not wanted or does not know the device. -/
structure Passes (s : Search P) (k : Nat) (d : Dialect P) : Prop where
  going : ¬ s.Stopped k
  refused : s.Wants d → ∃ e m, s.attempt k d = .error e m ∧ e.isNotFound = true

def Reaches (s : Search P) (k : Nat) : Prop :=
  ∀ j < k, ∀ d, s.dialects[j]? = some d → s.Passes j d

structure Asks (s : Search P) (k : Nat) : Prop where
  reaches : s.Reaches k
  going : ¬ s.Stopped k
  wants : s.WantsAt k

/-- How a search ends at a position. -/
inductive Ends (s : Search P) (k : Nat) : Detection P → Prop
  | exhausted (all : k = s.dialects.length) :
    Ends s k (failure (.notFound ("No device recognized on " ++ (s.reached k).device.link.id))
      (s.reached k))
  | cancelled (left : k < s.dialects.length) (stopped : s.Stopped k) :
    Ends s k (failure .cancelled (s.reached k))
  | found {d : Dialect P} {m : Mount P} (asks : s.Asks k) (here : s.dialects[k]? = some d)
      (matched : s.attempt k d = .ok () m) : Ends s k (.found ⟨m, some d⟩)
  | failed {d : Dialect P} {e : Failure} {m : Mount P} (asks : s.Asks k)
      (here : s.dialects[k]? = some d) (fault : s.attempt k d = .error e m)
      (fatal : e.isNotFound = false) : Ends s k (failure e m)

def behind (s : Search P) (d : Dialect P) (rest : List (Dialect P)) : Search P :=
  { s with dialects := rest, start := s.past s.start d }

variable {s : Search P} {d : Dialect P} {rest : List (Dialect P)}

theorem reached_succ (split : s.dialects = d :: rest) (k : Nat) :
    s.reached (k + 1) = (s.behind d rest).reached k := by
  unfold reached
  rw [split, List.take_succ_cons, List.foldl_cons]
  rfl

theorem passes_succ (split : s.dialects = d :: rest) (k : Nat) (other : Dialect P) :
    s.Passes (k + 1) other ↔ (s.behind d rest).Passes k other := by
  have same := reached_succ split k
  constructor
  · rintro ⟨going, refused⟩
    unfold Stopped at going
    unfold attempt at refused
    rw [same] at going refused
    exact ⟨going, refused⟩
  · rintro ⟨going, refused⟩
    constructor
    · unfold Stopped
      rw [same]
      exact going
    · unfold attempt
      rw [same]
      exact refused

theorem reaches_zero (s : Search P) : s.Reaches 0 := by
  intro j before
  cases before

theorem reaches_succ (split : s.dialects = d :: rest) (k : Nat) :
    s.Reaches (k + 1) ↔ s.Passes 0 d ∧ (s.behind d rest).Reaches k := by
  constructor
  · intro reaches
    constructor
    · exact reaches 0 (Nat.succ_pos k) d (by rw [split]; rfl)
    · intro j before other here
      have later := reaches (j + 1) (Nat.succ_lt_succ before) other
      rw [split, List.getElem?_cons_succ] at later
      exact (passes_succ split j other).mp (later here)
  · rintro ⟨first, others⟩ j before other here
    cases j with
    | zero =>
      rw [split, List.getElem?_cons_zero] at here
      cases here
      exact first
    | succ j =>
      rw [split, List.getElem?_cons_succ] at here
      exact (passes_succ split j other).mpr (others j (Nat.lt_of_succ_lt_succ before) other here)

theorem asks_succ (split : s.dialects = d :: rest) (passes : s.Passes 0 d) (k : Nat) :
    s.Asks (k + 1) ↔ (s.behind d rest).Asks k := by
  have same := reached_succ split k
  constructor
  · rintro ⟨reaches, going, wants⟩
    refine ⟨((reaches_succ split k).mp reaches).2, ?_, ?_⟩
    · unfold Stopped at going
      rwa [same] at going
    · obtain ⟨other, here, wanted⟩ := wants
      rw [split] at here
      exact ⟨other, here, wanted⟩
  · rintro ⟨reaches, going, wants⟩
    refine ⟨(reaches_succ split k).mpr ⟨passes, reaches⟩, ?_, ?_⟩
    · unfold Stopped
      rwa [same]
    · obtain ⟨other, here, wanted⟩ := wants
      refine ⟨other, ?_, wanted⟩
      rw [split]
      exact here

theorem Ends.succ (split : s.dialects = d :: rest) (passes : s.Passes 0 d) {k : Nat}
    {result : Detection P} (ends : (s.behind d rest).Ends k result) : s.Ends (k + 1) result := by
  have same := reached_succ split k
  have asksSucc := (asks_succ split passes k).mpr
  cases ends with
  | exhausted all =>
    rw [← same]
    refine .exhausted ?_
    rw [split, List.length_cons, all]
    rfl
  | cancelled left stopped =>
    rw [← same]
    refine .cancelled ?_ ?_
    · rw [split]
      exact Nat.succ_lt_succ left
    · unfold Stopped
      rwa [same]
  | found asks here matched =>
    refine .found (asksSucc asks) (by rw [split]; exact here) ?_
    unfold attempt
    rwa [same]
  | failed asks here fault fatal =>
    refine .failed (asksSucc asks) (by rw [split]; exact here) ?_ fatal
    unfold attempt
    rwa [same]

theorem outcome_cons (split : s.dialects = d :: rest) :
    s.outcome =
      if s.watched && !s.start.device.link.run.job.active then failure .cancelled s.start
      else if s.wanted.any (· ≠ d.name) then search s.wanted s.watched rest s.start
      else match d.handshake s.start.forget with
        | .ok _ m => .found ⟨m, some d⟩
        | .error e m =>
          if e.isNotFound then search s.wanted s.watched rest (drained m) else failure e m := by
  unfold outcome
  rw [split]
  rfl

theorem stopped_zero (s : Search P) :
    s.Stopped 0 ↔ (s.watched && !s.start.device.link.run.job.active) = true := by
  rw [Bool.and_eq_true, Bool.not_eq_true']
  rfl

theorem outcome_of_passes (split : s.dialects = d :: rest) (passes : s.Passes 0 d) :
    s.outcome = (s.behind d rest).outcome := by
  rw [outcome_cons split, if_neg (mt s.stopped_zero.mpr passes.going)]
  unfold outcome behind past
  by_cases wants : s.Wants d
  · obtain ⟨e, m, fault, unknown⟩ := passes.refused wants
    change d.handshake s.start.forget = .error e m at fault
    have asked := (wants_iff s d).mp wants
    simp only [asked, Bool.false_eq_true, ↓reduceIte, fault, unknown, wants, final]
  · have skipped : s.wanted.any (· ≠ d.name) = true := by
      rwa [wants_iff, Bool.not_eq_false] at wants
    simp only [skipped, ↓reduceIte, wants]

theorem passes_or_ends (split : s.dialects = d :: rest) : s.Passes 0 d ∨ s.Ends 0 s.outcome := by
  by_cases stopped : s.Stopped 0
  · right
    rw [outcome_cons split, if_pos (s.stopped_zero.mp stopped)]
    exact .cancelled (by rw [split]; exact Nat.succ_pos _) stopped
  by_cases wants : s.Wants d
  · have here : s.dialects[0]? = some d := by rw [split]; rfl
    have asks : s.Asks 0 := ⟨s.reaches_zero, stopped, d, here, wants⟩
    rw [outcome_cons split, if_neg (mt s.stopped_zero.mpr stopped)]
    simp only [(wants_iff s d).mp wants, Bool.false_eq_true, ↓reduceIte]
    cases result : d.handshake s.start.forget with
    | ok u m => exact Or.inr (.found asks here result)
    | error e m =>
      cases unknown : e.isNotFound with
      | true => exact Or.inl ⟨stopped, fun _ => ⟨e, m, result, unknown⟩⟩
      | false =>
        simp only [unknown, Bool.false_eq_true, ↓reduceIte]
        exact Or.inr (.failed asks here result unknown)
  · exact Or.inl ⟨stopped, fun wanted => absurd wanted wants⟩

/-- A search ends at some position, having passed by every dialect before it. -/
theorem exists_ends (s : Search P) : ∃ k, s.Reaches k ∧ s.Ends k s.outcome := by
  obtain ⟨dialects, wanted, watched, start⟩ := s
  induction dialects generalizing start with
  | nil => exact ⟨0, reaches_zero _, .exhausted rfl⟩
  | cons d rest ih =>
    rcases passes_or_ends (s := ⟨d :: rest, wanted, watched, start⟩) rfl with passes | ends
    · obtain ⟨k, reaches, ends⟩ := ih (past ⟨d :: rest, wanted, watched, start⟩ start d)
      refine ⟨k + 1, (reaches_succ rfl k).mpr ⟨passes, reaches⟩, ?_⟩
      rw [outcome_of_passes rfl passes]
      exact Ends.succ rfl passes ends
    · exact ⟨0, reaches_zero _, ends⟩

theorem reached_next (s : Search P) (k : Nat) :
    s.reached (k + 1) = (s.dialects[k]?.toList).foldl s.past (s.reached k) := by
  unfold reached
  rw [List.take_add_one, List.foldl_append]

theorem reached_induction {s : Search P} {I : Mount P → Prop} (start : I s.start)
    (step : ∀ m, ∀ d ∈ s.dialects, I m → I (s.past m d)) (k : Nat) : I (s.reached k) := by
  induction k with
  | zero => exact start
  | succ k ih =>
    rw [s.reached_next]
    cases here : s.dialects[k]? with
    | none => exact ih
    | some d => exact step _ d (List.mem_of_getElem? here) ih

theorem Ends.le_of_asks {s : Search P} {k j : Nat} {result : Detection P} (ends : s.Ends k result)
    (asks : s.Asks j) : j ≤ k := by
  by_contra behind
  have before : k < j := by omega
  obtain ⟨other, last, -⟩ := asks.wants
  have inside : j < s.dialects.length := (List.getElem?_eq_some_iff.mp last).1
  cases ends with
  | exhausted all => omega
  | cancelled left stopped =>
    exact (asks.reaches k before _ (List.getElem?_eq_getElem left)).going stopped
  | found asked here matched =>
    obtain ⟨other, here', wants⟩ := asked.wants
    cases here.symm.trans here'
    obtain ⟨e, m, fault, -⟩ := (asks.reaches k before _ here).refused wants
    rw [matched] at fault
    cases fault
  | failed asked here fault fatal =>
    obtain ⟨other, here', wants⟩ := asked.wants
    cases here.symm.trans here'
    -- a later handshake is called only if this one did not know the device
    obtain ⟨e, m, fault', unknown⟩ := (asks.reaches k before _ here).refused wants
    rw [fault] at fault'
    cases fault'
    rw [fatal] at unknown
    cases unknown

theorem Ends.port_of_asks {s : Search P} {k : Nat} {result : Detection P} (ends : s.Ends k result)
    (asks : s.Asks k) :
    ∃ d, s.dialects[k]? = some d ∧ result.link.port = (final (s.attempt k d)).device.link.port := by
  cases ends with
  | exhausted all =>
    obtain ⟨d, here, -⟩ := asks.wants
    rw [all, List.getElem?_eq_none (Nat.le_refl _)] at here
    cases here
  | cancelled left stopped => exact absurd stopped asks.going
  | found asked here matched => exact ⟨_, here, by rw [matched]; rfl⟩
  | failed asked here fault fatal => exact ⟨_, here, by rw [fault]; rfl⟩

theorem Ends.port_of_quiet {s : Search P} {k : Nat} {result : Detection P} (ends : s.Ends k result)
    (quiet : ¬ s.Asks k) : result.link.port = (s.reached k).device.link.port := by
  cases ends with
  | exhausted all => rfl
  | cancelled left stopped => rfl
  | found asks here matched => exact absurd asks quiet
  | failed asks here fault fatal => exact absurd asks quiet

theorem mem_wantedBefore {s : Search P} {k : Nat} (reaches : s.Reaches k) (j : Nat) :
    j ∈ s.wantedBefore k ↔ j < k ∧ s.Asks j := by
  unfold wantedBefore
  rw [List.mem_filter, List.mem_range, decide_eq_true_eq]
  apply and_congr_right
  intro before
  constructor
  · rintro ⟨d, here, wanted⟩
    refine ⟨fun i earlier => reaches i (Nat.lt_trans earlier before), ?_, d, here, wanted⟩
    exact (reaches j before d here).going
  · exact Asks.wants

theorem Ends.asked_last {s : Search P} {k : Nat} {result : Detection P} (reaches : s.Reaches k)
    (ends : s.Ends k result) (asks : s.Asks k) :
    (s.wantedBefore k ++ [k]).Pairwise (· < ·) ∧ ∀ j, j ∈ s.wantedBefore k ++ [k] ↔ s.Asks j := by
  constructor
  · rw [List.pairwise_append]
    refine ⟨s.wantedBefore_ascending k, List.pairwise_singleton .., ?_⟩
    intro j member last same
    rw [List.mem_singleton.mp same]
    exact ((mem_wantedBefore reaches j).mp member).1
  · intro j
    rw [List.mem_append, mem_wantedBefore reaches, List.mem_singleton]
    constructor
    · rintro (⟨-, asked⟩ | rfl)
      · exact asked
      · exact asks
    · intro asked
      rcases Nat.lt_or_eq_of_le (ends.le_of_asks asked) with before | same
      · exact Or.inl ⟨before, asked⟩
      · exact Or.inr same

theorem Ends.asked_before {s : Search P} {k : Nat} {result : Detection P} (reaches : s.Reaches k)
    (ends : s.Ends k result) (quiet : ¬ s.Asks k) (j : Nat) :
    j ∈ s.wantedBefore k ↔ s.Asks j := by
  rw [mem_wantedBefore reaches]
  refine ⟨And.right, fun asked => ⟨Nat.lt_of_le_of_ne (ends.le_of_asks asked) ?_, asked⟩⟩
  rintro rfl
  exact quiet asked

end Search

end MidiStorage.Detection
