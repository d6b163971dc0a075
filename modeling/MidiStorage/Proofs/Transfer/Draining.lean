import MidiStorage.Proofs.Transfer.Receiving

namespace MidiStorage.Link

open MidiStorage.Action

variable {P : Type} [Port P] {I : Link P → Prop}

theorem drainRounds_preserves (moves : ∀ l run, I l → I { l with run }) (read : Preserves I readOnce)
    (start rounds quietSince : Nat) : Preserves I (drainRounds start rounds quietSince) := by
  have onRun {α : Type} (a : Action Run α) : Preserves I (onRun a) := Preserves.apart moves a
  induction rounds generalizing quietSince with
  | zero => exact Preserves.pure _ ()
  | succ rounds ih =>
    rw [drainRounds]
    refine (Preserves.get _).bind ?_
    intro l
    refine (onRun _).bind ?_
    intro time
    split_ifs with rested
    · exact Preserves.pure _ ()
    · refine (onRun _).bind ?_
      intro later
      split_ifs with late
      · exact Preserves.pure _ ()
      · refine (poll_preserves read).outcome.bind ?_
        intro result
        cases result with
        | error e => exact Preserves.pure _ ()
        | ok bytes =>
          cases bytes with
          | nil => exact (onRun _).bind fun _ => ih _
          | cons b bytes => exact (onRun _).bind fun _ => ih _

/-- What holds once the framer is reset, and is not broken by the clock or by a read, holds after a
drain. -/
theorem final_drain {l : Link P} (reset : I { l with framer := l.framer.reset })
    (moves : ∀ l run, I l → I { l with run }) (read : Preserves I readOnce) : I (final (drain l)) := by
  have onRun {α : Type} (a : Action Run α) : Preserves I (onRun a) := Preserves.apart moves a
  have rest : Preserves I (now >>= fun start => now >>= fun quietSince => get >>= fun l =>
      drainRounds start (l.run.clock.rounds l.timing.dumpTimeout + Port.readsLeft l.port)
        quietSince) :=
    (onRun _).bind fun start => (onRun _).bind fun quietSince => (Preserves.get _).bind fun _ =>
      drainRounds_preserves moves read start _ quietSince
  exact rest _ reset

theorem drain_preserves (reset : ∀ l, I l → I { l with framer := l.framer.reset })
    (moves : ∀ l run, I l → I { l with run }) (read : Preserves I readOnce) : Preserves I drain :=
  fun l before => final_drain (reset l before) moves read

theorem drain_framer (l : Link P) : (final (drain l)).framer = {} :=
  final_drain (I := fun l => l.framer = {}) rfl (fun _ _ same => same) fun _ same => same

end MidiStorage.Link
