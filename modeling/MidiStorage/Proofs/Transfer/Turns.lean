import MidiStorage.Proofs.Transfer.Conversation
import MidiStorage.Proofs.Transfer.Replies

namespace MidiStorage

open MidiStorage.Action

namespace VirtualPort

variable (respond : List Bytes → Bytes → Reply)

def answer (earlier : List Bytes) (request : Bytes) : Bytes :=
  (respond earlier request).parts.flatten

/-- The device answers every message with one message, whatever it was asked before. -/
def Answers : Prop :=
  ∀ earlier request, Bytes.IsMessage request → Bytes.IsMessage (answer respond earlier request)

end VirtualPort

open VirtualPort

namespace Exchange

theorem sendSlices_plugged {l : Link VirtualPort} {watched : Bool} (unstopped : l.Unstopped watched)
    (plugged : l.port.unplugged = false) {slices : List Bytes} (full : [] ∉ slices) :
    ∃ run journal, (watched = true → run.Calm) ∧ sendSlices watched slices l = .ok ()
      { l with port := slices.foldl (fun p slice => (p.write slice).port) l.port, run, journal } := by
  induction slices generalizing l with
  | nil => exact ⟨l.run, l.journal, fun watched => (unstopped watched).1, rfl⟩
  | cons slice slices ih =>
    rw [List.mem_cons, not_or] at full
    have sent := Link.send_plugged plugged (Ne.symm full.1)
    let l₁ := l.afterTurn (l.port.write slice).port (l.port.write slice).cancels
      (some (.accepted slice))
    have plugged₁ : l₁.port.unplugged = false := (write_plugged_idle plugged slice).1
    have unstopped₁ : l₁.Unstopped watched := by
      intro here
      obtain ⟨calm, harmless⟩ := unstopped here
      refine ⟨?_, ?_⟩
      · have uncancelled := write_harmless harmless slice
        simp only [l₁, Link.afterTurn, uncancelled, Bool.false_eq_true, ↓reduceIte]
        exact calm
      · change ∀ earlier m, ((l.port.write slice).port.respond earlier m).cancels = false
        rwa [write_respond]
    obtain ⟨run, journal, calm, rest⟩ := ih unstopped₁ plugged₁ full.2
    rw [sendSlices, bind_of_ok (Link.check_of_not_stopped unstopped.going), bind_of_ok sent]
    exact ⟨run, journal, calm, rest⟩

end Exchange

namespace Link

/-- Nothing is on its way in either direction, and no reply is remembered. -/
structure Idle (l : Link VirtualPort) : Prop where
  plugged : l.port.unplugged = false
  quiet : l.port.pending = []
  noRequest : l.port.framer.queue = []
  noMessage : l.framer.queue = []
  between : l.framer.isReceiving = false
  disabled : l.cache.enabled = false

theorem ofPort_idle (id : String) (timing : Timing) {port : VirtualPort}
    (plugged : port.unplugged = false) (quiet : port.pending = []) (fresh : port.framer = {}) :
    (ofPort id port timing).Idle := by
  have noRequest : port.framer.queue = [] := by rw [fresh]
  exact ⟨plugged, quiet, noRequest, rfl, rfl, rfl⟩

variable {l : Link VirtualPort}

theorem Idle.withRun (idle : l.Idle) (run : Run) : Idle { l with run } :=
  ⟨idle.plugged, idle.quiet, idle.noRequest, idle.noMessage, idle.between, idle.disabled⟩

def asking (l : Link VirtualPort) (request : Bytes) (framer : Framer) (run : Run)
    (journal : List LinkEvent) : Link VirtualPort :=
  { l with
    port := { l.port with
      written := l.port.written ++ request
      framer
      requests := l.port.requests ++ [request]
      pending := answer l.port.respond l.port.requests request }
    run
    journal }

theorem sendSlices_asking {watched : Bool} (unstopped : l.Unstopped watched)
    (plugged : l.port.unplugged = false) (quiet : l.port.pending = [])
    (noRequest : l.port.framer.queue = []) {request : Bytes} (message : request.IsMessage) :
    ∃ framer run journal, framer.queue = [] ∧ (watched = true → run.Calm) ∧
      Exchange.sendSlices watched (request.slices Transfer.sliceSize) l =
        .ok () (l.asking request framer run journal) := by
  have positive : 0 < Transfer.sliceSize := by decide
  have full : [] ∉ request.slices Transfer.sliceSize := Bytes.slicesWithin_ne_nil positive _ request
  obtain ⟨run, journal, calm, sent⟩ := Exchange.sendSlices_plugged unstopped plugged full
  obtain ⟨framer, idle, written⟩ := write_message plugged noRequest message
  rw [write_flatten plugged noRequest, Bytes.slices_flatten positive, written, quiet,
    List.nil_append] at sent
  exact ⟨framer, run, journal, idle, calm, sent⟩

theorem Idle.transact (idle : l.Idle) (answers : Answers l.port.respond) {request : Bytes}
    (message : request.IsMessage) (timeout : Nat) :
    ∃ l', transact request timeout false l =
        .ok (answer l.port.respond l.port.requests request) l' ∧
      l'.Idle ∧ l'.port.respond = l.port.respond ∧
      l'.port.requests = l.port.requests ++ [request] := by
  let t : Transfer := { raw := request, timeout }
  obtain ⟨framer, run, journal, noRequest, -, sent⟩ :=
    sendSlices_asking l.unwatched_unstopped idle.plugged idle.quiet idle.noRequest message
  have ready : (l.asking request framer run journal).port.pending.IsMessage :=
    answers l.port.requests request message
  obtain ⟨time, later, read⟩ := now_ok (l.asking request framer run journal)
  obtain ⟨journal', discarded, heard⟩ := Exchange.collect_pending
    (l := l.asking request framer run journal) idle.noMessage ready
    (t := { t with phase := .receiving }) rfl read
    (not_stopped_unwatched _)
  have performed := Exchange.perform_of_heard (remembered_of_disabled idle.disabled t) sent heard
  rw [keep_disabled] at performed
  · exact ⟨_, withTransfer_of_ok performed,
      ⟨idle.plugged, rfl, noRequest, rfl, rfl, idle.disabled⟩, rfl, rfl⟩
  · exact idle.disabled

structure Ask where
  run : Run
  request : Bytes
  timeout : Nat

def turns (l : Link VirtualPort) : List Ask → List (EStateM.Result Failure (Link VirtualPort) Bytes)
  | [] => []
  | ask :: rest =>
    let result := Link.transact ask.request ask.timeout false { l with run := ask.run }
    result :: turns (final result) rest

/-- Every exchange ends well with the answer to its own request, whatever its timeout is; the device
sees the requests in their order, and nothing is on its way between two exchanges. -/
theorem replies_in_turn (idle : l.Idle) (answers : Answers l.port.respond) (asks : List Ask)
    (messages : ∀ ask ∈ asks, ask.request.IsMessage) (i : Nat) (ask : Ask)
    (here : asks[i]? = some ask) :
    let earlier := l.port.requests ++ (asks.take i).map (·.request)
    ∃ l', (turns l asks)[i]? = some (.ok (answer l.port.respond earlier ask.request) l') ∧
      l'.port.requests = earlier ++ [ask.request] ∧ l'.Idle := by
  induction asks generalizing l i with
  | nil => cases here
  | cons first rest ih =>
    obtain ⟨l₁, replied, idle₁, device, asked⟩ := (idle.withRun first.run).transact answers
      (messages first (List.mem_cons_self ..)) first.timeout
    cases i with
    | zero =>
      cases here
      refine ⟨l₁, ?_, ?_, idle₁⟩
      · rw [turns, List.getElem?_cons_zero, replied, List.take_zero, List.map_nil, List.append_nil]
      · rw [asked, List.take_zero, List.map_nil, List.append_nil]
    | succ i =>
      have later := ih idle₁ (by rw [device]; exact answers)
        (fun other member => messages other (List.mem_cons_of_mem _ member)) i here
      have split : l.port.requests ++ ((first :: rest).take (i + 1)).map (·.request) =
          l₁.port.requests ++ (rest.take i).map (·.request) := by
        rw [asked, List.take_succ_cons, List.map_cons, List.append_assoc, List.singleton_append]
      rw [turns, List.getElem?_cons_succ, replied, split, ← device]
      exact later

def counting (earlier : List Bytes) (_ : Bytes) : Reply where
  parts := [Bytes.sysexStart :: [if earlier.isEmpty then 1 else 2] ++ [Bytes.sysexEnd]]

theorem counting_answers : Answers counting := by
  intro earlier request _
  have message : Bytes.IsMessage
      (Bytes.sysexStart :: [if earlier.isEmpty then 1 else 2] ++ [Bytes.sysexEnd]) := by
    apply Bytes.isMessage_of_data
    intro b member
    rw [List.mem_singleton.mp member]
    split <;> decide
  exact message

theorem counting_replies :
    let short : Bytes := Bytes.sysexStart :: [9] ++ [Bytes.sysexEnd]
    let long : Bytes := Bytes.sysexStart :: List.replicate 600 5 ++ [Bytes.sysexEnd]
    let l := ofPort "virtual:0" { name := "virtual", respond := counting } Timing.standard
    ∃ l', (turns l [⟨{}, short, 100⟩, ⟨{}, long, 0⟩])[1]? = some (.ok [0xF0, 2, 0xF7] l') ∧
      l'.port.requests = [short, long] ∧ l'.Idle := by
  intro short long l
  have first : short.IsMessage := Bytes.isMessage_of_data (List.all_eq_true.mp (by decide))
  have second : long.IsMessage := by
    apply Bytes.isMessage_of_data
    intro b member
    rw [List.eq_of_mem_replicate member]
    decide
  have messages : ∀ ask ∈ [(⟨{}, short, 100⟩ : Ask), ⟨{}, long, 0⟩], ask.request.IsMessage := by
    intro ask member
    rcases List.mem_cons.mp member with rfl | last
    · exact first
    · rw [List.mem_singleton.mp last]
      exact second
  have idle : l.Idle := ofPort_idle "virtual:0" Timing.standard rfl rfl rfl
  exact replies_in_turn idle counting_answers _ messages 1 ⟨{}, long, 0⟩ rfl

end Link

end MidiStorage
