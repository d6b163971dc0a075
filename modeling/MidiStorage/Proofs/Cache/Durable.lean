import MidiStorage.Proofs.Eventide.Storing
import MidiStorage.Proofs.Transfer.Draining
import MidiStorage.Proofs.Transfer.Replies

namespace MidiStorage

open MidiStorage.Action

variable {P : Type}

namespace Link

/-- Neither a step of an exchange nor a switch of the cache, a reset of the framer or an entry in
the journal breaks the property. -/
structure Durable [Port P] (I : Link P → Prop) : Prop extends Enduring I where
  enable (l : Link P) : I l → I { l with cache := l.cache.enable }
  disable (l : Link P) : I l → I { l with cache := l.cache.disable }
  reset (l : Link P) : I l → I { l with framer := l.framer.reset }
  journal (l : Link P) (journal : List LinkEvent) : I l → I { l with journal }

variable {I : Link P → Prop}

theorem withTransfer_preserves {a : Action (Exchange P) Unit} (inner : Preserves (I ·.link) a)
    (t : Transfer) : Preserves I (withTransfer t a) := by
  intro l before
  have after := inner ⟨l, t⟩ before
  unfold withTransfer
  cases run : a ⟨l, t⟩ with
  | ok u x =>
    rw [run] at after
    exact after
  | error e x =>
    rw [run] at after
    exact after

theorem Lasting.receive [Port P] (lasting : Lasting I) (timeout : Nat) (watched : Bool) :
    Preserves I (receive timeout watched) := by
  have rounds_preserves (start rounds : Nat) : Preserves I (receiveRounds timeout watched start rounds) := by
    induction rounds with
    | zero => exact Preserves.throw _ _
    | succ rounds ih =>
      rw [receiveRounds]
      refine (lasting.onRun _).bind fun _ => (poll_preserves lasting.read).bind ?_
      intro bytes
      split_ifs with some
      · exact Preserves.pure _ _
      · refine (lasting.onRun _).bind ?_
        intro time
        dsimp only
        split_ifs with late
        · exact (Preserves.throw _ _).bind fun _ => (Preserves.get _).bind fun _ =>
            (lasting.onRun _).bind fun _ => ih
        · exact (Preserves.get _).bind fun _ => (lasting.onRun _).bind fun _ => ih
  exact (lasting.onRun _).bind fun start => (Preserves.get _).bind fun _ => rounds_preserves start _

theorem Abiding.hear [Port P] (abiding : Abiding I) (t : Transfer) :
    Preserves I (withTransfer t Exchange.receive) :=
  withTransfer_preserves (Exchange.receive_preserves abiding) t

theorem Lasting.hear [Port P] (lasting : Lasting I) (t : Transfer) :
    Preserves I (withTransfer t Exchange.receive) := lasting.abiding.hear t

theorem Lasting.report [Port P] (lasting : Lasting I) (change : Job Float → Job Float) :
    Preserves I (report change) := Preserves.modify fun l => lasting.run l _

namespace Durable

variable [Port P]

theorem pause (durable : Durable I) (watched : Bool) (duration : Nat) :
    Preserves I (pause watched duration) :=
  (Preserves.get _).bind fun _ => (durable.onRun _).bind fun _ =>
    Preserves.modify fun l => durable.journal l _

theorem tell (durable : Durable I) (t : Transfer) : Preserves I (withTransfer t Exchange.transmit) :=
  withTransfer_preserves (Exchange.transmit_preserves durable.write) t

theorem programChange (durable : Durable I) (channel program : UInt8) :
    Preserves I (programChange channel program) :=
  (send_preserves durable.write _).bind fun _ => Preserves.pure _ ()

theorem drain (durable : Durable I) : Preserves I drain :=
  drain_preserves durable.reset durable.run durable.read

theorem sendSysex (durable : Durable I) (bytes : Bytes) : Preserves I (sendSysex bytes) :=
  (durable.report _).bind fun _ => (durable.transmitAll _ _).bind fun _ => durable.report _

theorem receiveSysex (durable : Durable I) : Preserves I (receiveSysex (P := P)) :=
  (durable.report _).bind fun _ => (Preserves.get _).bind fun _ => (durable.toLasting.hear _).bind fun _ =>
    (durable.report _).bind fun _ => Preserves.pure _ _

end Durable

end Link

namespace Eventide.Presets

open Link

variable {I : Link P → Prop} {J : Device P → Prop}

theorem setPedal_preserves (p : Pedal) : Preserves (I ·.link) (setPedal (P := P) p) :=
  Preserves.modify fun _ before => before

theorem pedal_preserves : Preserves J (pedal (P := P)) :=
  (Preserves.get _).bind fun _ => Preserves.ofExcept _ _

theorem onLink_preserves {α : Type} {a : Action (Link P) α} (inner : Preserves I a) :
    Preserves (I ·.link) (Device.onLink a) :=
  Preserves.within (fun _ _ => rfl) inner

theorem check_preserves (watched : Bool) : Preserves J (Device.onLink (Link.check watched)) := by
  intro d before
  rwa [Device.final_onLink, Link.final_check]

variable [Port P]

theorem listen_abiding (abiding : Abiding I) (watched : Bool) : Preserves I (listen watched) := by
  refine (Preserves.get _).bind fun _ => (abiding.hear _).outcome.bind ?_
  intro result
  cases result with
  | ok bytes => exact Preserves.throw _ _
  | error e =>
    cases e with
    | timedOut limit => exact Preserves.pure _ ()
    | _ => exact Preserves.throw _ _

theorem listen_preserves (lasting : Lasting I) (watched : Bool) : Preserves I (listen watched) :=
  listen_abiding lasting.abiding watched

/-- No step of reading the bank breaks the property, but for the pause of reading it anew. -/
structure Loading (J : Device P → Prop) : Prop where
  exchange {t : Transfer} : t.cacheable = false → Preserves J (Device.onLink (Link.exchange t))
  keep (p : Pedal) (bank : List Preset) : Preserves J (setPedal { p with bank := some bank })

/-- No step of storing a preset breaks the property. -/
structure Saving (J : Device P → Prop) : Prop where
  transmit (message : Bytes) (watched : Bool) : Preserves J (Device.onLink (Link.transmitAll message watched))
  listen (watched : Bool) : Preserves J (Device.onLink (listen watched))
  refresh (p : Pedal) (index : Nat) (message : Bytes) : Preserves J (setPedal (p.refresh index message))

/-- No step of an operation that reads the bank breaks the property, whatever becomes of the clock
and the job, but for that pause. -/
structure Reading (J : Device P → Prop) : Prop extends Loading J where
  run (d : Device P) (run : Run) : J d → J { d with link := { d.link with run } }

/-- Nor does one of an operation that stores a preset. -/
structure Storing (J : Device P → Prop) : Prop extends Reading J, Saving J

theorem loading_of_steadfast (steadfast : Steadfast I) : Loading (P := P) (I ·.link) where
  exchange uncached := onLink_preserves (steadfast.exchange_uncached uncached)
  keep _ _ := setPedal_preserves _

theorem saving_of_steadfast (steadfast : Steadfast I) : Saving (P := P) (I ·.link) where
  transmit message watched := onLink_preserves (steadfast.transmitAll message watched)
  listen watched := onLink_preserves (listen_abiding steadfast.toAbiding watched)
  refresh _ _ _ := setPedal_preserves _

theorem storing_of_enduring (enduring : Enduring I) : Storing (P := P) (I ·.link) :=
  { loading_of_steadfast enduring.steadfast, saving_of_steadfast enduring.steadfast with
    run := fun d run => enduring.run d.link run }

namespace Loading

variable (loading : Loading J)

include loading

theorem bulkRead (p : Pedal) (watched : Bool) : Preserves J (bulkRead p watched) :=
  (loading.exchange rfl).bind fun _ => (loading.keep p _).bind fun _ => Preserves.pure _ _

theorem fetch (pause : ∀ watched duration, Preserves J (Device.onLink (Link.pause watched duration)))
    (p : Pedal) (watched : Bool) : Preserves J (fetch p watched) := by
  cases old : p.bank with
  | none =>
    rw [fetch_unread old]
    exact loading.bulkRead p watched
  | some bank =>
    intro d before
    rw [fetch_again old]
    exact (pause _ _).bind (fun _ => loading.bulkRead p watched) d before

theorem read (p : Pedal) (path : String) (watched : Bool) : Preserves J (read p path watched) := by
  refine (Preserves.ofExcept _ _).bind fun id => (Preserves.ofExcept _ _).bind fun index => ?_
  cases old : p.bank with
  | some bank =>
    refine (Preserves.pure _ bank).bind fun bank => ?_
    dsimp only
    cases bank[index]? with
    | some preset => exact Preserves.pure _ preset
    | none => exact Preserves.throw _ _
  | none =>
    dsimp only
    rw [fetch_unread old]
    refine (loading.bulkRead p watched).bind fun bank => ?_
    cases bank[index]? with
    | some preset => exact Preserves.pure _ preset
    | none => exact Preserves.throw _ _

theorem list (pause : ∀ watched duration, Preserves J (Device.onLink (Link.pause watched duration)))
    (dir : String) : Preserves J (list dir) := by
  have reads : Preserves J (pedal >>= fun p => Presets.fetch p false >>= fun bank =>
      pure (items p bank) : Action (Device P) (List Item)) :=
    pedal_preserves.bind fun p => (loading.fetch pause p false).bind fun _ => Preserves.pure _ _
  unfold Presets.list
  split_ifs with other
  · exact (Preserves.throw _ _).bind fun _ => reads
  · exact reads

end Loading

theorem Saving.store (saving : Saving J) (path : String) (data : Bytes) (watched : Bool) :
    Preserves J (store path data watched) :=
  pedal_preserves.bind fun p => (Preserves.ofExcept _ _).bind fun _ =>
    (Preserves.ofExcept _ _).bind fun index => (Preserves.ofExcept _ _).bind fun message =>
    (saving.transmit message watched).bind fun _ => (saving.listen watched).bind fun _ =>
    (saving.refresh p index message).bind fun _ => check_preserves _

namespace Reading

variable (reading : Reading J)

include reading

theorem report (change : Job Float → Job Float) : Preserves J (Device.onLink (Link.report change)) :=
  fun d before => reading.run d _ before

theorem download (path : String) : Preserves J (download path) :=
  (reading.report _).bind fun _ => pedal_preserves.bind fun p =>
    (reading.read p path true).bind fun _ => (check_preserves _).bind fun _ =>
    (reading.report _).bind fun _ => Preserves.pure _ _

end Reading

namespace Storing

variable (storing : Storing J)

include storing

theorem upload (path : String) (data : Bytes) : Preserves J (upload path data) :=
  (storing.toReading.report _).bind fun _ => (storing.store path data true).bind
    fun _ => storing.toReading.report _

theorem rename (source target : String) : Preserves J (rename source target) := by
  have stores (id : Nat) : Preserves J (pedal >>= fun p => Presets.read p source false >>= fun preset =>
      Presets.store ("/" ++ toString id) (renamed preset target).toMessage false) :=
    pedal_preserves.bind fun p => (storing.toReading.read p source false).bind fun _ =>
      storing.store _ _ false
  refine (Preserves.ofExcept _ _).bind fun id => ?_
  dsimp only
  split_ifs with unfit
  · exact (Preserves.throw _ _).bind fun _ => stores id
  · exact stores id

end Storing

end Eventide.Presets

end MidiStorage
