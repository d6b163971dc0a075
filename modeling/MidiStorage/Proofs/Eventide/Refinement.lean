import MidiStorage.Proofs.Eventide.Mirror
import MidiStorage.Proofs.Eventide.Mounting

namespace MidiStorage.Eventide

open MidiStorage.Action (answer final)

namespace Slots

inductive Request
  | list (path : String)
  | download (path : String)
  | upload (path : String) (device : UInt8) (file : Preset)
  | rename (path name : String)

inductive Answer
  | items (items : List Item)
  | dump (bytes : Bytes)
  | done
  deriving DecidableEq

def Request.Fits : Request → Prop
  | .list _ => True
  | .download _ => True
  | .upload _ _ file => file.Plain
  | .rename _ name => BareName name

def Request.perform : Request → Action (Mount VirtualPort) Answer
  | .list path => do return .items (← Mount.list path)
  | .download path => do return .dump (← Mount.download path)
  | .upload path device file => do
    Mount.upload path (dumpOf device [file])
    return .done
  | .rename path name => do
    Mount.rename path name
    return .done

def serve (s : Slots) : Request → Except Failure Answer × Slots
  | .list path =>
    if DevicePath.isRoot path then
      (.ok (.items [{ id := 1, name := "preset", kind := .directory }]), s)
    else ((inside path >>= s.list).map .items, s)
  | .download path => ((inside path >>= s.download).map .dump, s)
  | .upload path _ file =>
    match inside path with
    | .error e => (.error e, s)
    | .ok inner => ((s.upload inner file).1.map fun _ => .done, (s.upload inner file).2)
  | .rename path name =>
    match inside path with
    | .error e => (.error e, s)
    | .ok inner => ((s.rename inner name).1.map fun _ => .done, (s.rename inner name).2)

end Slots

/-- A device with the volume of presets, whose pedal holds those of `s`. -/
structure Mounted (initial s : Slots) (m : Mount VirtualPort) : Prop where
  volumes : m.volumes = [presetVolume VirtualPort]
  device : ∃ p, Mirrors initial s p m.device

namespace Mounted

variable {initial s : Slots} {m : Mount VirtualPort}

theorem serves (mounted : Mounted initial s m) : ∃ p, Serves p m := by
  obtain ⟨p, mirrors⟩ := mounted.device
  exact ⟨p, mounted.volumes, mirrors.known⟩

theorem onDevice (mounted : Mounted initial s m) {α : Type} {a : Action (Device VirtualPort) α}
    {given : Except Failure α} {s' : Slots}
    (serves : ∀ p d, Mirrors initial s p d →
      answer (a d) = given ∧ ∃ p', Mirrors initial s' p' (final (a d))) :
    answer (Mount.onDevice a m) = given ∧ Mounted initial s' (final (Mount.onDevice a m)) := by
  obtain ⟨p, mirrors⟩ := mounted.device
  obtain ⟨same, p', mirrors'⟩ := serves p m.device mirrors
  rw [Mount.onDevice, Action.answer_within, Action.final_within]
  exact ⟨same, mounted.volumes, p', mirrors'⟩

theorem onLink {a : Action (Link VirtualPort) Unit} (mounted : Mounted initial s m)
    (serves : ∀ p d, Mirrors initial s p d →
      ∃ d', Device.onLink a d = .ok () d' ∧ Mirrors initial s p d') :
    ∃ m', Mount.onLink a m = .ok () m' ∧ Mounted initial s m' := by
  obtain ⟨p, mirrors⟩ := mounted.device
  obtain ⟨d', run, mirrors'⟩ := serves p m.device mirrors
  exact ⟨_, Mount.onDevice_of_ok run, mounted.volumes, p, mirrors'⟩

theorem transfer (mounted : Mounted initial s m) {α : Type} {a : Action (Device VirtualPort) α}
    {given : Except Failure α} {s' : Slots}
    (serves : ∀ p d, Mirrors initial s p d →
      answer (a d) = given ∧ ∃ p', Mirrors initial s' p' (final (a d))) :
    answer (Mount.transfer (presetVolume VirtualPort).options a m) = given ∧
      Mounted initial s' (final (Mount.transfer (presetVolume VirtualPort).options a m)) := by
  have checked : ∀ {s : Slots} {m : Mount VirtualPort}, Mounted initial s m →
      ∃ m', Mount.onLink (Link.check true) m = .ok () m' ∧ Mounted initial s m' := fun mounted =>
    mounted.onLink fun p d mirrors => ⟨d, mirrors.check true, mirrors⟩
  obtain ⟨m₁, active, mounted₁⟩ := checked mounted
  obtain ⟨m₂, begun, mounted₂⟩ := mounted₁.onLink fun p d mirrors => mirrors.started
  obtain ⟨same, mounted₃⟩ := mounted₂.onDevice serves
  have single : (presetVolume VirtualPort).options.singleOperation = true := rfl
  unfold Mount.transfer
  simp only [single, ↓reduceIte]
  rw [Action.bind_of_ok active, Action.bind_of_ok begun]
  cases run : Mount.onDevice a m₂ with
  | error e m₃ =>
    rw [run] at same mounted₃
    rw [Action.bind_of_error run]
    exact ⟨same, mounted₃⟩
  | ok x m₃ =>
    rw [run] at same mounted₃
    change Mounted initial s' m₃ at mounted₃
    obtain ⟨m₄, still, mounted₄⟩ := checked mounted₃
    obtain ⟨m₅, ended, mounted₅⟩ := mounted₄.onLink fun p d mirrors => mirrors.advanced
    rw [Action.bind_of_ok run, Action.bind_of_ok still, Action.bind_of_ok ended]
    exact ⟨same, mounted₅⟩

theorem list (mounted : Mounted initial s m) (path : String) (below : DevicePath.isRoot path = false) :
    answer (Mount.list path m) = (Slots.inside path >>= s.list) ∧
      Mounted initial s (final (Mount.list path m)) := by
  obtain ⟨p, serves⟩ := mounted.serves
  cases named : Slots.inside path with
  | error e =>
    have lost : Mount.list path m = .error e m := serves.browse_lost (r := .list path) named fun _ => below
    rw [lost]
    exact ⟨rfl, mounted⟩
  | ok dir =>
    rw [serves.list_eq named]
    exact mounted.onDevice fun p d mirrors => mirrors.list dir

theorem download (mounted : Mounted initial s m) (path : String) :
    answer (Mount.download path m) = (Slots.inside path >>= s.download) ∧
      Mounted initial s (final (Mount.download path m)) := by
  obtain ⟨p, serves⟩ := mounted.serves
  cases named : Slots.inside path with
  | error e =>
    have lost : Mount.download path m = .error e m :=
      serves.browse_lost (r := .download path) named fun listing => by cases listing
    rw [lost]
    exact ⟨rfl, mounted⟩
  | ok inner =>
    rw [serves.download_eq named]
    exact mounted.transfer fun p d mirrors => mirrors.download inner

theorem upload (mounted : Mounted initial s m) {path inner : String}
    (named : Slots.inside path = .ok inner) (device : UInt8) {file : Preset} (plain : file.Plain) :
    answer (Mount.upload path (dumpOf device [file]) m) = (s.upload inner file).1 ∧
      Mounted initial (s.upload inner file).2
        (final (Mount.upload path (dumpOf device [file]) m)) := by
  obtain ⟨p, serves⟩ := mounted.serves
  rw [serves.upload_eq named]
  exact mounted.transfer fun p d mirrors => mirrors.upload inner device plain

theorem rename (mounted : Mounted initial s m) {path inner name : String}
    (named : Slots.inside path = .ok inner) (bare : BareName name) :
    answer (Mount.rename path name m) = (s.rename inner name).1 ∧
      Mounted initial (s.rename inner name).2 (final (Mount.rename path name m)) := by
  obtain ⟨p, serves⟩ := mounted.serves
  -- a bare name is no device path, so it reaches the volume as it is
  have nowhere : Slots.inside name = .error (.invalidPath name) := by
    unfold Slots.inside
    rw [bare.split_eq]
  have asIs : m.inside name = name := by rw [serves.inside_eq, nowhere]
  rw [serves.rename_eq named, asIs]
  exact mounted.onDevice fun p d mirrors => mirrors.rename inner bare

theorem upload_lost (mounted : Mounted initial s m) {path : String} {e : Failure}
    (failed : Slots.inside path = .error e) (data : Bytes) : Mount.upload path data m = .error e m := by
  obtain ⟨p, serves⟩ := mounted.serves
  exact serves.browse_lost (r := .upload path data) failed fun listing => by cases listing

theorem rename_lost (mounted : Mounted initial s m) {path : String} {e : Failure}
    (failed : Slots.inside path = .error e) (name : String) : Mount.rename path name m = .error e m := by
  obtain ⟨p, serves⟩ := mounted.serves
  exact serves.browse_lost (r := .rename path name) failed fun listing => by cases listing

/-- One request is answered as the map answers it, and the mirror is kept. -/
theorem perform (mounted : Mounted initial s m) {request : Slots.Request} (fits : request.Fits) :
    answer (request.perform m) = (s.serve request).1 ∧
      Mounted initial (s.serve request).2 (final (request.perform m)) := by
  cases request with
  | list path =>
    simp only [Slots.Request.perform, Slots.serve]
    cases root : DevicePath.isRoot path with
    | true =>
      have volumes : Mount.list path m =
          .ok [{ id := 1, name := "preset", kind := .directory }] m := by
        unfold Mount.list
        rw [Action.bind_of_ok (Action.get_apply m)]
        simp only [root, ↓reduceIte, mounted.volumes]
        rfl
      rw [Action.answer_bind_pure, Action.final_bind_pure, volumes, if_pos rfl]
      exact ⟨rfl, mounted⟩
    | false =>
      obtain ⟨given, mounted'⟩ := mounted.list path root
      rw [Action.answer_bind_pure, Action.final_bind_pure, given, if_neg Bool.false_ne_true]
      exact ⟨rfl, mounted'⟩
  | download path =>
    obtain ⟨given, mounted'⟩ := mounted.download path
    simp only [Slots.Request.perform, Slots.serve]
    rw [Action.answer_bind_pure, Action.final_bind_pure, given]
    exact ⟨rfl, mounted'⟩
  | upload path device file =>
    simp only [Slots.Request.perform, Slots.serve]
    rw [Action.answer_bind_pure, Action.final_bind_pure]
    cases named : Slots.inside path with
    | error e =>
      rw [mounted.upload_lost named]
      exact ⟨rfl, mounted⟩
    | ok inner =>
      obtain ⟨given, mounted'⟩ := mounted.upload named device fits
      rw [given]
      exact ⟨rfl, mounted'⟩
  | rename path name =>
    simp only [Slots.Request.perform, Slots.serve]
    rw [Action.answer_bind_pure, Action.final_bind_pure]
    cases named : Slots.inside path with
    | error e =>
      rw [mounted.rename_lost named]
      exact ⟨rfl, mounted⟩
    | ok inner =>
      obtain ⟨given, mounted'⟩ := mounted.rename named fits
      rw [given]
      exact ⟨rfl, mounted'⟩

end Mounted

structure Call where
  run : Run
  request : Slots.Request

def served (m : Mount VirtualPort) (call : Call) : Except Failure Slots.Answer × Mount VirtualPort :=
  let link := { m.device.link with run := call.run }
  let result := call.request.perform { m with device := { m.device with link } }
  (answer result, final result)

/-- The answers to a sequence of requests, each of which leaves another state behind. -/
def answers {σ ρ α : Type} (step : σ → ρ → α × σ) : σ → List ρ → List α
  | _, [] => []
  | s, request :: rest => (step s request).1 :: answers step (step s request).2 rest

theorem Mounted.served {initial s : Slots} {m : Mount VirtualPort} (mounted : Mounted initial s m)
    {call : Call} (serene : call.run.Serene) (fits : call.request.Fits) :
    (served m call).1 = (s.serve call.request).1 ∧
      Mounted initial (s.serve call.request).2 (Eventide.served m call).2 := by
  obtain ⟨p, mirrors⟩ := mounted.device
  have ready : Mounted initial s
      { m with device := { m.device with link := { m.device.link with run := call.run } } } :=
    ⟨mounted.volumes, p, mirrors.withLink fun _ awaits => awaits.withRun serene⟩
  exact ready.perform fits

/-- However often presets are listed, downloaded, uploaded and renamed, under active jobs and
whatever replies the link remembers, the answers are those of the slot map. -/
theorem answers_of_slots {initial s : Slots} {m : Mount VirtualPort} (mounted : Mounted initial s m)
    (calls : List Call) (serene : ∀ call ∈ calls, call.run.Serene)
    (fits : ∀ call ∈ calls, call.request.Fits) :
    answers served m calls = answers Slots.serve s (calls.map (·.request)) := by
  induction calls generalizing s m with
  | nil => rfl
  | cons call calls ih =>
    obtain ⟨given, mounted'⟩ :=
      mounted.served (serene call (List.mem_cons_self ..)) (fits call (List.mem_cons_self ..))
    have rest := ih mounted' (fun other member => serene other (List.mem_cons_of_mem _ member))
      (fun other member => fits other (List.mem_cons_of_mem _ member))
    rw [List.map_cons, answers, answers, given, rest]

def twins : Slots where
  first := 0
  count := 2
  preset _ := ⟨#v["[1] 12 3", "0 0", "1 1", "2 2", "3 3", "4 4"], "Twin"⟩

def twinMount : Mount VirtualPort where
  device := {
    link := Link.ofPort "virtual:0" { name := "virtual", respond := twins.respond 0 } Timing.standard
    state := some (.pedal { deviceId := 0, kind := .h9, first := 0, count := 2 }) }
  volumes := [presetVolume VirtualPort]

theorem twins_mounted : Mounted twins twins twinMount := by
  have serene : twinMount.device.link.run.Serene :=
    ⟨⟨rfl, fun _ member => by cases member⟩, fun _ member => by cases member⟩
  have plain : twins.Plain := ⟨by decide +kernel, by decide, by decide⟩
  refine ⟨rfl, _, ⟨rfl, rfl, rfl, by decide, ?_, plain, [], ⟨serene, rfl, rfl, rfl, rfl, rfl, rfl⟩, rfl⟩⟩
  intro bank kept
  cases kept

def visitor : Preset := ⟨#v["[8] 9 9", "a", "b", "c", "d", "e"], "Visitor"⟩

def twinCalls : List Call :=
  let clock : Clock := { micros := 500, script := [{ passed := 7 }, { passed := 0 }] }
  [⟨{}, .list "/preset"⟩, ⟨{ clock }, .rename "/preset/1" "Solo"⟩,
    ⟨{}, .upload "/preset/0:Lead" 5 visitor⟩, ⟨{ clock }, .list "/preset"⟩,
    ⟨{}, .download "/preset/0"⟩, ⟨{}, .download "/preset/2"⟩]

theorem twin_answers :
    Mounted twins twins twinMount ∧ (∀ call ∈ twinCalls, call.run.Serene) ∧
      (∀ call ∈ twinCalls, call.request.Fits) ∧
      answers served twinMount twinCalls =
        [.ok (.items [{ id := 0, name := "Twin" }, { id := 1, name := "Twin" }]), .ok .done, .ok .done,
          .ok (.items [{ id := 0, name := "Visitor" }, { id := 1, name := "Solo" }]),
          .ok (.dump (dumpOf 0 [⟨#v["[1] 9 9", "a", "b", "c", "d", "e"], "Visitor"⟩])),
          .error (.invalidPath "/2")] := by
  have serene : ∀ call ∈ twinCalls, call.run.Serene := by
    have active : ∀ call ∈ twinCalls, call.run.job.active = true := by decide +kernel
    have uncancelled : ∀ call ∈ twinCalls, ∀ tick ∈ call.run.clock.script, tick.cancels = false := by
      decide +kernel
    have unheard : ∀ call ∈ twinCalls, ∀ cancels ∈ call.run.hearings, cancels = false := by
      decide +kernel
    exact fun call member => ⟨⟨active call member, uncancelled call member⟩, unheard call member⟩
  have solo : BareName "Solo" := by decide
  have plain : visitor.Plain := by decide +kernel
  have fits : ∀ call ∈ twinCalls, call.request.Fits := by
    simp only [twinCalls, List.forall_mem_cons, Slots.Request.Fits, solo, plain, List.not_mem_nil,
      IsEmpty.forall_iff, implies_true, and_self]
  refine ⟨twins_mounted, serene, fits, ?_⟩
  rw [answers_of_slots twins_mounted twinCalls serene fits]
  decide +kernel

def longPreset : Preset :=
  let line := String.ofList (List.replicate 40 'x')
  ⟨#v["[1] " ++ line, line, line, line, line, line], "Long"⟩

/-- A plain preset whose dump is too long is refused, and its slot keeps what it has. -/
theorem long_upload_refused :
    longPreset.Plain ∧ Mounted twins twins twinMount ∧
      (let given :=
        answers served twinMount [⟨{}, .upload "/preset/0" 5 longPreset⟩, ⟨{}, .download "/preset/0"⟩]
      given = [.error (.badMessage "bad preset length 269"), .ok (.dump (dumpOf 0 [twins.preset 0]))] ∧
        given ≠ [.ok .done, .ok (.dump (dumpOf 0 [longPreset.inSlot 0]))]) := by
  refine ⟨by decide +kernel, twins_mounted, ?_⟩
  decide +kernel

end MidiStorage.Eventide
