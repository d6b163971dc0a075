import MidiStorage.Port.Scripted
import MidiStorage.Proofs.Cache.Writes
import MidiStorage.Proofs.Transfer.Faults

namespace MidiStorage

open MidiStorage.Action

namespace ReplyCache

structure Sound (c : ReplyCache) : Prop where
  off : c.enabled = false → c.entries = []
  asked : ∀ entry ∈ c.entries, entry.1 ≠ []
  once : (c.entries.map Prod.fst).Nodup

variable {c : ReplyCache} {request reply : Bytes}

theorem Sound.of_nil (nothing : c.entries = []) : c.Sound := by
  refine ⟨fun _ => nothing, ?_, ?_⟩
  · intro entry member
    rw [nothing] at member
    cases member
  · rw [nothing]
    exact List.nodup_nil

theorem Sound.enable (sound : c.Sound) : c.enable.Sound := by
  refine ⟨?_, sound.asked, sound.once⟩
  intro off
  cases off

theorem Sound.insert (sound : c.Sound) (some : request ≠ []) (reply : Bytes) :
    (c.insert request reply).Sound := by
  unfold ReplyCache.insert
  split_ifs with enabled
  · have others : (c.entries.filter (·.1 != request)).Sublist c.entries := List.filter_sublist
    refine ⟨fun off => absurd off (by simp [enabled]), ?_, ?_⟩
    · intro entry member
      rcases List.mem_cons.mp member with rfl | old
      · exact some
      · exact sound.asked entry (others.subset old)
    · rw [List.map_cons, List.nodup_cons]
      refine ⟨?_, sound.once.sublist (others.map _)⟩
      intro again
      obtain ⟨entry, member, same⟩ := List.mem_map.mp again
      simp [same] at member
  · exact sound

theorem Sound.get?_eq_some_iff (sound : c.Sound) :
    c.get? request = some reply ↔ (request, reply) ∈ c.entries := by
  unfold get?
  constructor
  · intro found
    split_ifs at found
    obtain ⟨before, after, entries, -⟩ := List.lookup_eq_some_iff.mp found
    simp [entries]
  · intro member
    have enabled : c.enabled = true := by
      by_contra off
      rw [sound.off (by simpa using off)] at member
      cases member
    rw [if_pos enabled, List.lookup_eq_some_iff]
    obtain ⟨before, after, entries⟩ := List.append_of_mem member
    refine ⟨before, after, entries, ?_⟩
    intro entry early
    have once := sound.once
    rw [entries, List.map_append, List.map_cons, List.nodup_append] at once
    obtain ⟨-, -, apart⟩ := once
    have different := apart entry.1 (List.mem_map_of_mem early) request (List.mem_cons_self ..)
    simpa using Ne.symm different

theorem Sound.mem_insert_iff (sound : c.Sound) (unknown : c.get? request = none)
    {entry : Bytes × Bytes} :
    entry ∈ (c.insert request reply).entries ↔
      c.enabled = true ∧ entry = (request, reply) ∨ entry ∈ c.entries := by
  have others : c.entries.filter (·.1 != request) = c.entries := by
    apply List.filter_eq_self.mpr
    intro entry member
    rw [bne_iff_ne]
    rintro rfl
    have found := sound.get?_eq_some_iff.mpr member
    rw [unknown] at found
    cases found
  unfold ReplyCache.insert
  split_ifs with enabled
  · rw [others]
    simp [enabled]
  · simp [enabled]

end ReplyCache

variable {P : Type}

namespace Link

variable {l : Link P} {t : Transfer} {request reply : Bytes}

theorem keep_cache (l : Link P) (t : Transfer) (reply : Bytes) :
    (l.keep t reply).cache =
      if t.cacheable && !t.raw.isEmpty then l.cache.insert t.raw reply else l.cache := by
  unfold keep
  split_ifs <;> rfl

theorem remembered_eq_some_iff (sound : l.cache.Sound) :
    l.remembered t = some reply ↔ t.cacheable = true ∧ (t.raw, reply) ∈ l.cache.entries := by
  rw [← sound.get?_eq_some_iff]
  unfold remembered
  split_ifs with kept
  · rw [Bool.and_eq_true] at kept
    simp [kept.1]
  · constructor
    · intro none
      cases none
    · rintro ⟨cacheable, known⟩
      have asked := sound.asked _ (sound.get?_eq_some_iff.mp known)
      simp [cacheable] at kept
      exact absurd kept asked

variable [Port P]

theorem cache_lasting (c : ReplyCache) : Lasting (P := P) (·.cache = c) where
  run _ _ same := same
  read _ same := same
  push _ _ same := same
  pop _ same := same
  popAll _ same := same

theorem sendSlices_cache (c : ReplyCache) (watched : Bool) (slices : List Bytes) :
    Preserves (·.cache = c) (Exchange.sendSlices (P := P) watched slices) :=
  Exchange.sendSlices_preserves (fun _ _ same => same) watched slices

theorem exchange_error_cache {e : Failure} {l' : Link P} (failed : exchange t l = .error e l') :
    l'.cache = l.cache := by
  have sending := sendSlices_cache (P := P) l.cache t.watched (t.raw.slices Transfer.sliceSize)
  have answered := exchange_answered t l
  rw [failed] at answered
  cases answered with
  | unsent unknown failed => exact sending.of_error rfl failed
  | unheard unknown sent failed =>
    exact (Exchange.collect_preserves (cache_lasting l.cache) _).of_error (sending.of_ok rfl sent) failed

theorem exchange_ok_cache {l' : Link P} (unknown : l.remembered t = none)
    (run : exchange t l = .ok reply l') : l'.cache = (l.keep t reply).cache := by
  have sending := sendSlices_cache (P := P) l.cache t.watched (t.raw.slices Transfer.sliceSize)
  have answered := exchange_answered t l
  rw [run] at answered
  cases answered with
  | remembered known =>
    rw [unknown] at known
    cases known
  | heard _ sent heard =>
    have same := (Exchange.collect_preserves (cache_lasting l.cache) _).of_ok (sending.of_ok rfl sent) heard
    rw [keep_cache, keep_cache, same]

def Use.Forgets : Use → Prop
  | .disable | .clear | .post _ => True
  | .enable | .exchange _ => False

/-- The use is an exchange of the request that reaches the port, and what it comes to may be
kept. -/
def Learns (l : Link P) (visit : Run × Use) (request reply : Bytes) : Prop :=
  ∃ t, visit.2 = .exchange t ∧ t.cacheable = true ∧ t.raw = request ∧ request ≠ [] ∧
    l.cache.enabled = true ∧ (l.used visit).accepted = l.accepted ++ request ∧
    answer (exchange t { l with run := visit.1 }) = .ok reply

theorem sound_enduring : Enduring (P := P) (·.cache.Sound) where
  run _ _ sound := sound
  read _ sound := sound
  push _ _ sound := sound
  pop _ sound := sound
  popAll _ sound := sound
  write _ _ sound := sound
  clear _ _ := .of_nil rfl

theorem used_sound (sound : l.cache.Sound) (visit : Run × Use) : (l.used visit).cache.Sound := by
  refine sound_enduring.action (fun _ _ sound => sound.enable) (fun _ _ => .of_nil rfl) ?_ _ sound
  intro t _
  apply sound_enduring.exchange
  intro l reply sound
  rw [keep_cache]
  split_ifs with kept
  · have some : t.raw ≠ [] := by
      rintro nothing
      simp [nothing] at kept
    exact sound.insert some reply
  · exact sound

theorem uses_sound (sound : l.cache.Sound) (visits : List (Run × Use)) :
    (visits.foldl used l).cache.Sound := by
  induction visits generalizing l with
  | nil => exact sound
  | cons visit visits ih => exact ih (used_sound sound visit)

theorem not_learns {visit : Run × Use} (other : ∀ t, visit.2 ≠ .exchange t) :
    ¬ l.Learns visit request reply := by
  rintro ⟨t, asks, -⟩
  exact other t asks

theorem learns_exchange_iff {run : Run} :
    l.Learns (run, .exchange t) request reply ↔ t.raw = request ∧ t.cacheable = true ∧ request ≠ [] ∧
      l.cache.enabled = true ∧ l.remembered t = none ∧ answer (exchange t { l with run }) = .ok reply := by
  unfold Learns
  rw [used_exchange]
  constructor
  · rintro ⟨t', asks, cacheable, raw, some, enabled, accepted, answered⟩
    cases asks
    refine ⟨raw, cacheable, some, enabled, ?_, answered⟩
    by_contra known
    obtain ⟨other, known⟩ := Option.ne_none_iff_exists'.mp known
    rw [exchange_of_remembered (l := { l with run }) known] at accepted
    exact some (List.self_eq_append_right.mp accepted)
  · rintro ⟨raw, cacheable, some, enabled, unknown, answered⟩
    refine ⟨t, rfl, cacheable, raw, some, enabled, ?_, answered⟩
    rw [← raw]
    exact exchange_ok (l := { l with run }) unknown (eq_ok_of_answer answered)

theorem mem_exchange_iff (sound : l.cache.Sound) (run : Run) (t : Transfer) :
    (request, reply) ∈ (l.used (run, .exchange t)).cache.entries ↔
      l.Learns (run, .exchange t) request reply ∨ (request, reply) ∈ l.cache.entries := by
  rw [used_exchange, learns_exchange_iff]
  cases result : exchange t { l with run } with
  | error e l' =>
    have same : l'.cache = l.cache := exchange_error_cache (l := { l with run }) result
    simp [final, answer, same]
  | ok heard l' =>
    cases unknown : l.remembered t with
    | some known =>
      rw [exchange_of_remembered (l := { l with run }) unknown] at result
      cases result
      simp [final]
    | none =>
      have cache := exchange_ok_cache (l := { l with run }) unknown result
      rw [keep_cache] at cache
      dsimp only [final]
      rw [cache]
      by_cases kept : (t.cacheable && !t.raw.isEmpty) = true
      · have nothing : l.cache.get? t.raw = none := by
          unfold remembered at unknown
          rwa [if_pos kept] at unknown
        rw [if_pos kept, sound.mem_insert_iff nothing]
        rw [Bool.and_eq_true, Bool.not_eq_true', List.isEmpty_eq_false_iff] at kept
        apply or_congr_left
        constructor
        · rintro ⟨enabled, same⟩
          cases same
          exact ⟨rfl, kept.1, kept.2, enabled, rfl, rfl⟩
        · rintro ⟨rfl, -, -, enabled, -, answered⟩
          cases answered
          exact ⟨enabled, rfl⟩
      · rw [if_neg kept]
        refine ⟨Or.inr, fun either => either.resolve_left ?_⟩
        rintro ⟨rfl, cacheable, some, -⟩
        simp [cacheable, some] at kept

theorem mem_used_iff (sound : l.cache.Sound) (visit : Run × Use) :
    (request, reply) ∈ (l.used visit).cache.entries ↔
      l.Learns visit request reply ∨ ¬ visit.2.Forgets ∧ (request, reply) ∈ l.cache.entries := by
  obtain ⟨run, use⟩ := visit
  cases use with
  | enable =>
    have nothing : ¬ l.Learns (run, .enable) request reply := not_learns (by simp)
    simp only [nothing, Use.Forgets, not_false_eq_true, true_and, false_or]
    rfl
  | disable =>
    have nothing : ¬ l.Learns (run, .disable) request reply := not_learns (by simp)
    simp only [nothing, Use.Forgets, not_true_eq_false, false_and, or_false, iff_false]
    exact List.not_mem_nil
  | clear =>
    have nothing : ¬ l.Learns (run, .clear) request reply := not_learns (by simp)
    simp only [nothing, Use.Forgets, not_true_eq_false, false_and, or_false, iff_false]
    exact List.not_mem_nil
  | post message =>
    have nothing : ¬ l.Learns (run, .post message) request reply := not_learns (by simp)
    have dropped : (l.used (run, .post message)).cache.entries = [] :=
      transmitAll_forgets message false { l with run }
    simp [nothing, Use.Forgets, dropped]
  | exchange t => simpa [Use.Forgets] using mem_exchange_iff sound run t

theorem not_learns_of_known (sound : l.cache.Sound) (known : (request, reply) ∈ l.cache.entries)
    (visit : Run × Use) (other : Bytes) : ¬ l.Learns visit request other := by
  obtain ⟨run, use⟩ := visit
  intro learns
  have ⟨t, asks, _⟩ := learns
  cases asks
  obtain ⟨rfl, cacheable, -, -, unknown, -⟩ := learns_exchange_iff.mp learns
  rw [(remembered_eq_some_iff sound).mpr ⟨cacheable, known⟩] at unknown
  cases unknown

/-- In these uses the reply was learnt, and since then nothing made the link forget, nor was another
reply to the request learnt. -/
def Keeps (l : Link P) (visits : List (Run × Use)) (request reply : Bytes) : Prop :=
  ∃ before visit after, visits = before ++ visit :: after ∧
    (before.foldl used l).Learns visit request reply ∧
    ∀ front later back, after = front ++ later :: back → ¬ later.2.Forgets ∧
      ∀ other, ¬ ((before ++ visit :: front).foldl used l).Learns later request other

theorem mem_uses_iff (nothing : l.cache.entries = []) (visits : List (Run × Use)) :
    (request, reply) ∈ (visits.foldl used l).cache.entries ↔ l.Keeps visits request reply := by
  induction visits using List.reverseRecOn with
  | nil =>
    rw [List.foldl_nil, nothing]
    simp [Keeps]
  | append_singleton visits visit ih =>
    have sound := uses_sound (.of_nil nothing) visits
    rw [List.foldl_append, List.foldl_cons, List.foldl_nil, mem_used_iff sound]
    constructor
    · rintro (learnt | ⟨stays, known⟩)
      · exact ⟨visits, visit, [], rfl, learnt, by simp⟩
      · obtain ⟨before, first, after, rfl, learnt, since⟩ := ih.mp known
        refine ⟨before, first, after ++ [visit], by simp, learnt, ?_⟩
        intro front later back split
        rcases List.eq_nil_or_concat back with rfl | ⟨back, last, rfl⟩
        · obtain ⟨rfl, same⟩ := List.append_inj' split rfl
          cases same
          exact ⟨stays, not_learns_of_known sound known visit⟩
        · rw [List.concat_eq_append, ← List.cons_append, ← List.append_assoc] at split
          exact since front later back (List.append_inj' split rfl).1
    · rintro ⟨before, first, after, split, learnt, since⟩
      rcases List.eq_nil_or_concat after with rfl | ⟨after, last, rfl⟩
      · obtain ⟨rfl, same⟩ := List.append_inj' split rfl
        cases same
        exact Or.inl learnt
      · rw [List.concat_eq_append, ← List.cons_append, ← List.append_assoc] at split
        obtain ⟨rfl, same⟩ := List.append_inj' split rfl
        cases same
        rw [List.concat_eq_append] at since
        refine Or.inr ⟨(since after visit [] rfl).1, ih.mpr ⟨before, first, after, rfl, learnt, ?_⟩⟩
        intro front later back same
        exact since front later (back ++ [visit]) (by rw [same, List.append_assoc, List.cons_append])

/-- After any history, at any time and for any job: what is remembered is what the last exchange of
the request came to that reached the port and could be kept, if nothing was forgotten since. A
failed exchange does not change that, and one that is answered from it changes nothing at all. -/
theorem remembered_learnt (id : String) (port : P) (timing : Timing) (visits : List (Run × Use)) :
    let start := ofPort id port timing
    let l := visits.foldl used start
    (l.cache.enabled = false → l.cache.entries = []) ∧
    (∀ reply, ([], reply) ∉ l.cache.entries) ∧
    (l.cache.entries.map Prod.fst).Nodup ∧
    (∀ request reply, (request, reply) ∈ l.cache.entries ↔ start.Keeps visits request reply) ∧
    ∀ (run : Run) (t : Transfer),
      (∀ e l', exchange t { l with run } = .error e l' → l'.cache = l.cache) ∧
      (∀ reply, t.cacheable = true → (t.raw, reply) ∈ l.cache.entries →
        exchange t { l with run } = .ok reply { l with run }) ∧
      (∀ reply l', exchange t { l with run } = .ok reply l' →
        t.cacheable = true ∧ (t.raw, reply) ∈ l.cache.entries ∨ l'.accepted = l.accepted ++ t.raw) := by
  intro start l
  have sound : l.cache.Sound := uses_sound (.of_nil rfl) visits
  refine ⟨sound.off, fun reply member => sound.asked _ member rfl, sound.once,
    fun request reply => mem_uses_iff rfl visits, ?_⟩
  intro run t
  refine ⟨fun e l' failed => exchange_error_cache (l := { l with run }) failed, ?_, ?_⟩
  · intro reply cacheable known
    exact exchange_of_remembered ((remembered_eq_some_iff (l := { l with run }) sound).mpr ⟨cacheable, known⟩)
  · intro reply l' answered
    cases unknown : l.remembered t with
    | none => exact Or.inr (exchange_ok (l := { l with run }) unknown answered)
    | some known =>
      left
      rw [exchange_of_remembered (l := { l with run }) unknown] at answered
      cases answered
      exact (remembered_eq_some_iff sound).mp unknown

/-- The second exchange hears nothing, and leaves the reply to the first as it is. -/
example :
    let port : ScriptedPort := { name := "scripted", reads := [.bytes [0xF0, 2, 0xF7]] }
    let asks (b : UInt8) : Run × Use := ({}, .exchange { raw := [0xF0, b, 0xF7], timeout := 100 })
    let l := [({}, .enable), asks 1, asks 3].foldl used (ofPort "scripted:0" port Timing.standard)
    l.cache.entries = [([0xF0, 1, 0xF7], [0xF0, 2, 0xF7])] := by decide +kernel

end Link

end MidiStorage
