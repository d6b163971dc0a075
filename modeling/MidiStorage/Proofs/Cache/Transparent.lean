import MidiStorage.Proofs.Cache.Uses
import MidiStorage.Proofs.Transfer.Turns

namespace MidiStorage

open MidiStorage.Action

namespace VirtualPort

/-- The device answers a message always alike, and with one message if it answers at all. -/
structure Constant (respond : List Bytes → Bytes → Reply) : Prop where
  same (earlier : List Bytes) {m : Bytes} : m.IsMessage → answer respond earlier m = answer respond [] m
  message {m : Bytes} : m.IsMessage → answer respond [] m = [] ∨ (answer respond [] m).IsMessage

def expected (respond : List Bytes → Bytes → Reply) (t : Transfer) : Except Failure Bytes :=
  if answer respond [] t.raw = [] then .error (.timedOut t.timeout) else .ok (answer respond [] t.raw)

end VirtualPort

open VirtualPort

namespace Link

variable {respond : List Bytes → Bytes → Reply} {l : Link VirtualPort}

/-- Requests are single messages exchanged for single ones and cancelled by nobody, and what is sent
without waiting for a reply has none. -/
inductive Suits (respond : List Bytes → Bytes → Reply) (run : Run) : Use → Prop
  | enable : Suits respond run .enable
  | disable : Suits respond run .disable
  | clear : Suits respond run .clear
  | exchange {t : Transfer} (single : t.batch = false) (request : t.raw.IsMessage)
    (going : t.watched = true → run.Calm ∧ ∀ earlier m, (respond earlier m).cancels = false) :
    Suits respond run (.exchange t)
  | post {message : Bytes} (single : message.IsMessage) (silent : answer respond [] message = []) :
    Suits respond run (.post message)

theorem Suits.message {run : Run} {use : Use} (suits : Suits respond run use) {m : Bytes}
    (sends : use.message? = some m) : m.IsMessage := by
  cases suits with
  | enable => cases sends
  | disable => cases sends
  | clear => cases sends
  | exchange single request => rwa [← Option.some.inj sends]
  | post single => rwa [← Option.some.inj sends]

/-- Nothing is on its way in either direction, and what is remembered is what the device answers. -/
structure Truthful (respond : List Bytes → Bytes → Reply) (l : Link VirtualPort) : Prop where
  device : l.port.respond = respond
  plugged : l.port.unplugged = false
  quiet : l.port.pending = []
  noRequest : l.port.framer.queue = []
  noMessage : l.framer.queue = []
  cache : ∀ entry ∈ l.cache.entries, answer respond [] entry.1 = entry.2 ∧ entry.2 ≠ []

theorem ofPort_truthful (id : String) (timing : Timing) {port : VirtualPort}
    (plugged : port.unplugged = false) (quiet : port.pending = []) (noRequest : port.framer.queue = []) :
    (ofPort id port timing).Truthful port.respond := by
  refine ⟨rfl, plugged, quiet, noRequest, rfl, ?_⟩
  intro entry none
  cases none

namespace Truthful

theorem withRun (truthful : l.Truthful respond) (run : Run) : Truthful respond { l with run } :=
  ⟨truthful.device, truthful.plugged, truthful.quiet, truthful.noRequest, truthful.noMessage,
    truthful.cache⟩

theorem withCache (truthful : l.Truthful respond) {cache : ReplyCache}
    (kept : ∀ entry ∈ cache.entries, answer respond [] entry.1 = entry.2 ∧ entry.2 ≠ []) :
    Truthful respond { l with cache } :=
  ⟨truthful.device, truthful.plugged, truthful.quiet, truthful.noRequest, truthful.noMessage, kept⟩

theorem forgotten (truthful : l.Truthful respond) {cache : ReplyCache} (nothing : cache.entries = []) :
    Truthful respond { l with cache } := by
  apply truthful.withCache
  intro entry member
  rw [nothing] at member
  cases member

theorem keep (truthful : l.Truthful respond) {t : Transfer} {reply : Bytes}
    (answers : answer respond [] t.raw = reply) (some : reply ≠ []) :
    Truthful respond (l.keep t reply) := by
  obtain ⟨cache, kept, entries⟩ := keep_entries l t reply
  rw [kept]
  apply truthful.withCache
  intro entry member
  rcases entries entry member with old | ⟨rfl, -⟩
  · exact truthful.cache entry old
  · exact ⟨answers, some⟩

theorem expected_of_remembered (truthful : l.Truthful respond) {t : Transfer} {reply : Bytes}
    (known : l.remembered t = some reply) : expected respond t = .ok reply := by
  obtain ⟨answers, some⟩ := truthful.cache _ (mem_of_remembered known)
  unfold expected
  rw [answers, if_neg some]

theorem unstopped (truthful : l.Truthful respond) {run : Run} {watched : Bool}
    (going : watched = true → run.Calm ∧ ∀ earlier m, (respond earlier m).cancels = false) :
    Unstopped watched { l with run } := by
  intro here
  obtain ⟨calm, harmless⟩ := going here
  rw [← truthful.device] at harmless
  exact ⟨calm, harmless⟩

theorem exchange_unknown (truthful : l.Truthful respond) (constant : Constant respond) {t : Transfer}
    (single : t.batch = false) (request : t.raw.IsMessage) (unstopped : l.Unstopped t.watched)
    (unknown : l.remembered t = none) :
    answer (exchange t l) = expected respond t ∧ (final (exchange t l)).Truthful respond ∧
      (final (exchange t l)).port.written = l.port.written ++ t.raw := by
  obtain ⟨framer, run, journal, noRequest, calm, sent⟩ :=
    sendSlices_asking unstopped truthful.plugged truthful.quiet truthful.noRequest request
  have input : (l.asking t.raw framer run journal).port.pending = VirtualPort.answer respond [] t.raw := by
    rw [← constant.same l.port.requests request, ← truthful.device]
    rfl
  let asked := l.asking t.raw framer run journal
  let wait : Transfer := { t with phase := .receiving }
  unfold exchange expected
  rcases constant.message request with nothing | message
  · obtain ⟨run', journal', waited⟩ := Exchange.collect_unanswered (l := asked) (t := wait) calm
      (input.trans nothing) truthful.noMessage single
    rw [withTransfer_of_error (Exchange.perform_of_unheard unknown sent waited), if_pos nothing]
    exact ⟨rfl, ⟨truthful.device, truthful.plugged, input.trans nothing, noRequest,
      truthful.noMessage, truthful.cache⟩, rfl⟩
  · have some : VirtualPort.answer respond [] t.raw ≠ [] := by
      intro nothing
      rw [nothing] at message
      exact Bytes.not_isMessage_nil message
    have ready : asked.port.pending.IsMessage := by rwa [← input] at message
    obtain ⟨framer', run', journal', noMessage, heard⟩ :=
      Exchange.collect_answered (l := asked) (t := wait) calm ready truthful.noMessage single
    rw [withTransfer_of_ok (Exchange.perform_of_heard unknown sent heard), if_neg some]
    refine ⟨congrArg Except.ok input, ?_, ?_⟩
    · apply keep _ input.symm
      · rwa [input]
      · exact ⟨truthful.device, truthful.plugged, rfl, noRequest, noMessage, truthful.cache⟩
    · simp only [final, keep_port]
      rfl

theorem exchange (truthful : l.Truthful respond) (constant : Constant respond) {t : Transfer}
    (single : t.batch = false) (request : t.raw.IsMessage) (unstopped : l.Unstopped t.watched) :
    answer (Link.exchange t l) = expected respond t ∧
      (final (Link.exchange t l)).Truthful respond ∧ ∃ sent, sent.Sublist [t.raw] ∧
        (l.cache.enabled = false → sent = [t.raw]) ∧
        (final (Link.exchange t l)).port.written = l.port.written ++ sent.flatten := by
  cases known : l.remembered t with
  | some reply =>
    rw [exchange_of_remembered known]
    refine ⟨(truthful.expected_of_remembered known).symm, truthful, [], List.nil_sublist _, ?_, ?_⟩
    · intro disabled
      rw [remembered_of_disabled disabled] at known
      cases known
    · exact (List.append_nil _).symm
  | none =>
    obtain ⟨answers, truthful', written⟩ :=
      truthful.exchange_unknown constant single request unstopped known
    refine ⟨answers, truthful', [t.raw], List.Sublist.refl _, fun _ => rfl, ?_⟩
    rw [written, List.flatten_singleton]

theorem post (truthful : l.Truthful respond) (constant : Constant respond) {message : Bytes}
    (single : message.IsMessage) (silent : VirtualPort.answer respond [] message = []) :
    (final (Link.post message l)).Truthful respond ∧
      (final (Link.post message l)).port.written = l.port.written ++ message := by
  obtain ⟨framer, run, journal, noRequest, -, sent⟩ := sendSlices_asking l.unwatched_unstopped
    truthful.plugged truthful.quiet truthful.noRequest single
  have input : (l.asking message framer run journal).port.pending = [] := by
    rw [← silent, ← constant.same l.port.requests single, ← truthful.device]
    rfl
  unfold Link.post
  rw [transmitAll_of_ok sent]
  refine ⟨?_, rfl⟩
  apply forgotten _ rfl
  exact ⟨truthful.device, truthful.plugged, input, noRequest, truthful.noMessage, truthful.cache⟩

theorem used (truthful : l.Truthful respond) (constant : Constant respond) {visit : Run × Use}
    (suits : Suits respond visit.1 visit.2) :
    (l.used visit).Truthful respond ∧ ∃ sent, sent.Sublist visit.2.message?.toList ∧
      (l.cache.enabled = false → sent = visit.2.message?.toList) ∧
      (l.used visit).port.written = l.port.written ++ sent.flatten := by
  have unsent {run : Run} {cache : ReplyCache} : ∃ sent : List Bytes, sent.Sublist [] ∧
      (l.cache.enabled = false → sent = []) ∧
      ({ l with run, cache } : Link VirtualPort).port.written = l.port.written ++ sent.flatten :=
    ⟨[], List.nil_sublist _, fun _ => rfl, (List.append_nil _).symm⟩
  obtain ⟨run, use⟩ := visit
  cases suits with
  | enable => exact ⟨(truthful.withRun run).withCache truthful.cache, unsent⟩
  | disable => exact ⟨(truthful.withRun run).forgotten rfl, unsent⟩
  | clear => exact ⟨(truthful.withRun run).forgotten rfl, unsent⟩
  | exchange single request going =>
    obtain ⟨-, after⟩ := (truthful.withRun run).exchange constant single request (truthful.unstopped going)
    rw [used_exchange]
    exact after
  | post single silent =>
    obtain ⟨truthful', written⟩ := (truthful.withRun run).post constant single silent
    refine ⟨truthful', _, List.Sublist.refl _, fun _ => rfl, ?_⟩
    rw [Use.message?, Option.toList_some, List.flatten_singleton]
    exact written

theorem answers_cons (truthful : l.Truthful respond) (constant : Constant respond) {visit : Run × Use}
    (suits : Suits respond visit.1 visit.2) (visits : List (Run × Use)) :
    answers l (visit :: visits) =
      visit.2.transfer?.toList.map (expected respond) ++ answers (l.used visit) visits := by
  obtain ⟨run, use⟩ := visit
  cases suits with
  | enable => rfl
  | disable => rfl
  | clear => rfl
  | post => rfl
  | exchange single request going =>
    obtain ⟨answered, -⟩ := (truthful.withRun run).exchange constant single request (truthful.unstopped going)
    rw [answers_exchange, answered]
    rfl

theorem uses (truthful : l.Truthful respond) (constant : Constant respond) (visits : List (Run × Use))
    (suitable : ∀ visit ∈ visits, Suits respond visit.1 visit.2) :
    answers l visits = (visits.filterMap (·.2.transfer?)).map (expected respond) ∧
      ∃ sent, sent.Sublist (visits.filterMap (·.2.message?)) ∧
        (l.cache.enabled = false → (∀ visit ∈ visits, visit.2 ≠ .enable) →
          sent = visits.filterMap (·.2.message?)) ∧
        (visits.foldl Link.used l).port.written = l.port.written ++ sent.flatten := by
  induction visits generalizing l with
  | nil => exact ⟨rfl, [], List.nil_sublist _, fun _ _ => rfl, (List.append_nil _).symm⟩
  | cons visit visits ih =>
    have suits := suitable visit (List.mem_cons_self ..)
    obtain ⟨truthful', sent, part, all, written⟩ := truthful.used constant suits
    obtain ⟨answered, later, part', all', written'⟩ :=
      ih truthful' fun other member => suitable other (List.mem_cons_of_mem _ member)
    have split : (visit :: visits).filterMap (·.2.message?) =
        visit.2.message?.toList ++ visits.filterMap (·.2.message?) := by
      rw [List.filterMap_cons]
      cases visit.2.message? <;> rfl
    refine ⟨?_, sent ++ later, ?_, ?_, ?_⟩
    · rw [truthful.answers_cons constant suits, answered, ← List.map_append, List.filterMap_cons]
      cases visit.2.transfer? <;> rfl
    · rw [split]
      exact part.append part'
    · intro disabled never
      have first := never visit (List.mem_cons_self ..)
      rw [split, all disabled, all' (used_disabled disabled first)]
      exact fun other member => never other (List.mem_cons_of_mem _ member)
    · rw [List.foldl_cons, written', written, List.append_assoc, List.flatten_append]

theorem sentMessages (truthful : l.Truthful respond) (constant : Constant respond)
    (visits : List (Run × Use)) (suitable : ∀ visit ∈ visits, Suits respond visit.1 visit.2) :
    ∃ sent, sent.Sublist (visits.filterMap (·.2.message?)) ∧
      (l.cache.enabled = false → (∀ visit ∈ visits, visit.2 ≠ .enable) →
        sent = visits.filterMap (·.2.message?)) ∧
      (visits.foldl Link.used l).port.sentMessages = l.port.sentMessages ++ sent := by
  obtain ⟨-, sent, part, all, written⟩ := truthful.uses constant visits suitable
  refine ⟨sent, part, all, ?_⟩
  unfold VirtualPort.sentMessages Framer.messages
  rw [written, Framer.push_append]
  apply Framer.push_messages
  intro m member
  obtain ⟨visit, here, sends⟩ := List.mem_filterMap.mp (part.subset member)
  exact (suitable visit here).message sends

end Truthful

/-- A history of uses, and the same history with the cache never enabled, whenever their parts take
place: the exchanges have the same results, and what is written with the cache is some of what is
written without. -/
theorem cache_transparent (port : VirtualPort) (plugged : port.unplugged = false)
    (quiet : port.pending = []) (noRequest : port.framer.queue = []) (constant : Constant port.respond)
    (id : String) (timing : Timing) (visits plain : List (Run × Use))
    (suitable : ∀ visit ∈ visits ++ plain, Suits port.respond visit.1 visit.2)
    (same : plain.map (·.2) = (visits.map (·.2)).filter (· ≠ .enable)) :
    let l := ofPort id port timing
    answers l visits = answers l plain ∧
      answers l plain = (plain.filterMap (·.2.transfer?)).map (expected port.respond) ∧
      (visits.foldl used l).port.sentMessages.Sublist (plain.foldl used l).port.sentMessages := by
  intro l
  have truthful : l.Truthful port.respond := ofPort_truthful id timing plugged quiet noRequest
  have suits : ∀ visit ∈ visits, Suits port.respond visit.1 visit.2 := fun visit member =>
    suitable visit (List.mem_append_left _ member)
  have plainSuits : ∀ visit ∈ plain, Suits port.respond visit.1 visit.2 := fun visit member =>
    suitable visit (List.mem_append_right _ member)
  have never : ∀ visit ∈ plain, visit.2 ≠ .enable := by
    intro visit member
    have kept : visit.2 ∈ plain.map (·.2) := List.mem_map_of_mem member
    rw [same] at kept
    simpa using (List.mem_filter.mp kept).2
  -- enabling the cache is neither an exchange nor a message
  have transfers : visits.filterMap (·.2.transfer?) = plain.filterMap (·.2.transfer?) := by
    have kept := Use.filterMap_filter_enable (f := Use.transfer?) rfl (visits.map (·.2))
    rw [← same, List.filterMap_map, List.filterMap_map] at kept
    exact kept.symm
  have messages : visits.filterMap (·.2.message?) = plain.filterMap (·.2.message?) := by
    have kept := Use.filterMap_filter_enable (f := Use.message?) rfl (visits.map (·.2))
    rw [← same, List.filterMap_map, List.filterMap_map] at kept
    exact kept.symm
  obtain ⟨sent, part, -, written⟩ := truthful.sentMessages constant visits suits
  obtain ⟨all, -, whole, plainWritten⟩ := truthful.sentMessages constant plain plainSuits
  have answered := (truthful.uses constant plain plainSuits).1
  refine ⟨?_, answered, ?_⟩
  · rw [answered, (truthful.uses constant visits suits).1, transfers]
  · rw [written, plainWritten, whole rfl never, ← messages]
    exact List.Sublist.append_left part _

def single (_ : List Bytes) (request : Bytes) : Reply where
  parts := if request = [0xF0, 1, 0xF7] then [[0xF0, 2, 0xF7]] else []

theorem single_constant : Constant single where
  same _ _ _ := rfl
  message := by
    intro m _
    have reply : Bytes.IsMessage (Bytes.sysexStart :: [2] ++ [Bytes.sysexEnd]) :=
      Bytes.isMessage_of_data (List.all_eq_true.mp (by decide))
    by_cases known : m = [0xF0, 1, 0xF7]
    · right
      rw [known]
      exact reply
    · left
      simp [VirtualPort.answer, single, known]

/-- Of five requests four are the same. The second of these is answered from memory, until a message
without a reply makes the link forget. -/
theorem single_transparent :
    let known : Transfer := { raw := [0xF0, 1, 0xF7], timeout := 100 }
    let uses : List Use := [.exchange known, .exchange { known with watched := true },
      .exchange { known with cacheable := false }, .post [0xF0, 3, 0xF7], .exchange known,
      .exchange { known with raw := [0xF0, 4, 0xF7] }]
    let visits : List (Run × Use) := (.enable :: uses).map (Prod.mk {})
    let plain : List (Run × Use) := uses.map (Prod.mk {})
    let l := ofPort "virtual:0" { name := "virtual", respond := single : VirtualPort } Timing.standard
    answers l visits = answers l plain ∧
      answers l plain = List.replicate 4 (.ok [0xF0, 2, 0xF7]) ++ [.error (.timedOut 100)] ∧
      (visits.foldl used l).port.sentMessages.Sublist (plain.foldl used l).port.sentMessages ∧
      (visits.foldl used l).port.sentMessages.length = 5 ∧
      (plain.foldl used l).port.sentMessages.length = 6 := by
  intro known uses visits plain l
  have message (b : UInt8) (data : Bytes.isData b = true) :
      Bytes.IsMessage (Bytes.sysexStart :: [b] ++ [Bytes.sysexEnd]) :=
    Bytes.isMessage_of_data (by simpa using data)
  have going (watched : Bool) : watched = true →
      Run.Calm {} ∧ ∀ earlier m, (single earlier m).cancels = false := by
    intro _
    refine ⟨⟨rfl, ?_⟩, fun _ _ => rfl⟩
    intro tick none
    cases none
  have suits : ∀ use ∈ Use.enable :: uses, Suits single {} use := by
    simp only [uses, List.forall_mem_cons]
    have one := message 1 (by decide)
    exact ⟨.enable, .exchange rfl one (going _), .exchange rfl one (going _),
      .exchange rfl one (going _), .post (message 3 (by decide)) rfl, .exchange rfl one (going _),
      .exchange rfl (message 4 (by decide)) (going _), List.forall_mem_nil _⟩
  have suitable : ∀ visit ∈ visits ++ plain, Suits single visit.1 visit.2 := by
    intro visit member
    rcases List.mem_append.mp member with cached | uncached
    · obtain ⟨use, here, rfl⟩ := List.mem_map.mp cached
      exact suits use here
    · obtain ⟨use, here, rfl⟩ := List.mem_map.mp uncached
      exact suits use (List.mem_cons_of_mem _ here)
  obtain ⟨answered, expects, fewer⟩ := cache_transparent { name := "virtual", respond := single }
    rfl rfl rfl single_constant "virtual:0" Timing.standard visits plain suitable rfl
  exact ⟨answered, expects, fewer, by decide +kernel, by decide +kernel⟩

end Link

end MidiStorage
