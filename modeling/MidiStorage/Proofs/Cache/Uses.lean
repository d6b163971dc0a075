import MidiStorage.Proofs.Transfer.Replies

namespace MidiStorage.Link

open MidiStorage.Action

variable {P : Type}

inductive Use
  | enable
  | disable
  | clear
  | exchange (t : Transfer)
  | post (message : Bytes)
  deriving DecidableEq, Repr

namespace Use

def transfer? : Use → Option Transfer
  | .exchange t => some t
  | _ => none

def message? : Use → Option Bytes
  | .exchange t => some t.raw
  | .post message => some message
  | _ => none

def action [Port P] : Use → Action (Link P) Unit
  | .enable => modifyCache ReplyCache.enable
  | .disable => modifyCache ReplyCache.disable
  | .clear => modifyCache ReplyCache.clear
  | .exchange t => do let _ ← Link.exchange t
  | .post message => Link.post message

theorem filterMap_filter_enable {α : Type} {f : Use → Option α} (nothing : f .enable = none)
    (uses : List Use) : (uses.filter (· ≠ .enable)).filterMap f = uses.filterMap f := by
  rw [List.filterMap_filter]
  congr 1
  funext use
  by_cases enable : use = .enable
  · simp [enable, nothing]
  · simp [enable]

end Use

variable [Port P]

def used (l : Link P) (visit : Run × Use) : Link P := final (visit.2.action { l with run := visit.1 })

def answers (l : Link P) : List (Run × Use) → List (Except Failure Bytes)
  | [] => []
  | visit :: visits =>
    match visit.2 with
    | .exchange t => answer (exchange t { l with run := visit.1 }) :: answers (l.used visit) visits
    | _ => answers (l.used visit) visits

theorem used_exchange (l : Link P) (run : Run) (t : Transfer) :
    l.used (run, .exchange t) = final (exchange t { l with run }) :=
  final_bind_pure (exchange t) (fun _ => ()) { l with run }

theorem answers_exchange (l : Link P) (run : Run) (t : Transfer) (visits : List (Run × Use)) :
    answers l ((run, .exchange t) :: visits) =
      answer (exchange t { l with run }) :: answers (l.used (run, .exchange t)) visits := rfl

variable {I : Link P → Prop}

theorem Enduring.action (enduring : Enduring I) {use : Use}
    (enable : use = .enable → ∀ l, I l → I { l with cache := l.cache.enable })
    (disable : ∀ l, I l → I { l with cache := l.cache.disable })
    (exchange : ∀ t, use = .exchange t → Preserves I (Link.exchange t)) : Preserves I use.action := by
  cases use with
  | enable => exact Preserves.modify (enable rfl)
  | disable => exact Preserves.modify disable
  | clear => exact Preserves.modify enduring.clear
  | exchange t => exact (exchange t rfl).bind fun _ => Preserves.pure _ ()
  | post message => exact enduring.transmitAll message false

theorem disabled_enduring : Enduring (P := P) (·.cache.enabled = false) where
  run _ _ same := same
  read _ same := same
  push _ _ same := same
  pop _ same := same
  popAll _ same := same
  write _ _ same := same
  clear _ same := same

theorem used_disabled {l : Link P} (disabled : l.cache.enabled = false) {visit : Run × Use}
    (other : visit.2 ≠ .enable) : (l.used visit).cache.enabled = false := by
  refine disabled_enduring.action (fun enable => absurd enable other) (fun _ _ => rfl) ?_ _ disabled
  intro t _
  apply disabled_enduring.exchange
  intro l reply disabled
  rwa [keep_disabled disabled]

end MidiStorage.Link
