import MidiStorage.Proofs.Detection.Rehearsed

namespace MidiStorage.Detection

open MidiStorage.Action

variable {P : Type}

/-- A detection asks the wanted dialects in order, each once, until one of them matches or fails, or
the search is cancelled at any dialect; it then ends as told by `Search.Ends`, and the port is
closed unless it ends with a match. -/
theorem detect_dispatches [Port P] (dialects : List (Dialect P)) (wanted : Option String)
    (watched : Bool) (link : Link P) :
    let s : Search P := ⟨dialects, wanted, watched, drained (Mount.ofLink link)⟩
    let outcome := detect dialects wanted watched link
    (∃ k, s.Reaches k ∧ s.Ends k outcome) ∧
    (∀ view : P → List Nat, Register dialects view (fun k _ => k) →
      ∃ asked : List Nat, view outcome.link.port = view link.port ++ asked ∧
        asked.Pairwise (· < ·) ∧ ∀ k, k ∈ asked ↔ s.Asks k) ∧
    (link.closed = false → (∀ d ∈ dialects, KeepsOpen d) →
      (outcome.link.closed = true ↔ ∀ session, outcome ≠ .found session)) := by
  intro s outcome
  refine ⟨s.exists_ends, ?_, ?_⟩
  · intro view register
    obtain ⟨asked, ascending, mem_iff, entries⟩ := Register.outcome (s := s) register
    have start := Register.drained (s := s) register (Mount.ofLink link)
    refine ⟨asked, ?_, ascending, mem_iff⟩
    change view outcome.link.port = view (drained (Mount.ofLink link)).device.link.port ++ _ at entries
    rw [entries, start, List.map_id']
    rfl
  · intro before keep
    exact Search.closed_iff (s := s) (drained_open before) keep

open MidiStorage.Rehearsal

def rehearsedScripts : List DialectScript :=
  [{ number := 0, name := "default" },
    { number := 1, name := "h9", text := some "half", failure := some (.notFound "no") },
    { number := 2, name := "h9", deviceName := some "H9" },
    { number := 3, name := "h9" }]

theorem rehearsedScripts_numbered (k : Nat) (s : DialectScript) (m : Mount Rig)
    (here : rehearsedScripts[k]? = some s) : LogEntry.number? (s.meeting m) = some k := by
  match k with
  | 0 | 1 | 2 | 3 =>
    cases here
    rfl
  | k + 4 => cases here

theorem dispatch_of_rehearsed :
    let s : Search Rig :=
      ⟨rehearsedScripts.map DialectScript.dialect, some "h9", true, drained (Mount.ofLink silentRig)⟩
    let outcome := detect (rehearsedScripts.map DialectScript.dialect) (some "h9") true silentRig
    (∃ k, s.Reaches k ∧ s.Ends k outcome) ∧ (∀ k, k ∈ [1, 2] ↔ s.Asks k) ∧
      outcome.found?.map (·.mount.device.info.name) = some "H9" ∧
      outcome.link.closed = false := by
  intro s outcome
  obtain ⟨ends, calls, closed⟩ := detect_dispatches (rehearsedScripts.map DialectScript.dialect)
    (some "h9") true silentRig
  have named : outcome.found?.map (·.mount.device.info.name) = some "H9" := by decide +kernel
  refine ⟨ends, ?_, named, ?_⟩
  · obtain ⟨asked, entries, -, mem_iff⟩ :=
      calls _ (DialectScript.register (fun _ => rfl) rehearsedScripts_numbered)
    have logged : outcome.link.port.picked LogEntry.number? = [1, 2] := by decide +kernel
    have same : [1, 2] = asked := logged.symm.trans entries
    rw [same]
    exact mem_iff
  · have keep (d : Dialect Rig) (member : d ∈ rehearsedScripts.map DialectScript.dialect) :
        KeepsOpen d := by
      obtain ⟨script, -, rfl⟩ := List.mem_map.mp member
      exact script.keepsOpen
    apply eq_false_of_ne_true
    intro isClosed
    obtain ⟨session, found, -⟩ := Option.map_eq_some_iff.mp named
    exact (closed rfl keep).mp isClosed session (found?_eq_some.mp found)

end MidiStorage.Detection
