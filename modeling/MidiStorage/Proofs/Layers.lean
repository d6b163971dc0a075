import MidiStorage.Mount
import MidiStorage.Proofs.Action

namespace MidiStorage

variable {P α : Type}

namespace Device

theorem onLink_of_ok {a : Action (Link P) α} {d : Device P} {x : α} {l : Link P}
    (inner : a d.link = .ok x l) : onLink a d = .ok x { d with link := l } :=
  Action.within_of_ok inner

theorem onLink_of_error {a : Action (Link P) α} {d : Device P} {e : Failure} {l : Link P}
    (inner : a d.link = .error e l) : onLink a d = .error e { d with link := l } :=
  Action.within_of_error inner

theorem final_onLink (a : Action (Link P) α) (d : Device P) :
    Action.final (onLink a d) = { d with link := Action.final (a d.link) } :=
  Action.final_within ..

end Device

namespace Mount

theorem onDevice_of_ok {a : Action (Device P) α} {m : Mount P} {x : α} {d : Device P}
    (inner : a m.device = .ok x d) : onDevice a m = .ok x { m with device := d } :=
  Action.within_of_ok inner

theorem onDevice_of_error {a : Action (Device P) α} {m : Mount P} {e : Failure} {d : Device P}
    (inner : a m.device = .error e d) : onDevice a m = .error e { m with device := d } :=
  Action.within_of_error inner

theorem onLink_of_ok {a : Action (Link P) α} {m : Mount P} {x : α} {l : Link P}
    (inner : a m.device.link = .ok x l) :
    onLink a m = .ok x { m with device := { m.device with link := l } } :=
  onDevice_of_ok (Device.onLink_of_ok inner)

theorem onLink_of_error {a : Action (Link P) α} {m : Mount P} {e : Failure} {l : Link P}
    (inner : a m.device.link = .error e l) :
    onLink a m = .error e { m with device := { m.device with link := l } } :=
  onDevice_of_error (Device.onLink_of_error inner)

theorem final_onDevice (a : Action (Device P) α) (m : Mount P) :
    Action.final (onDevice a m) = { m with device := Action.final (a m.device) } :=
  Action.final_within ..

theorem final_onLink (a : Action (Link P) α) (m : Mount P) :
    Action.final (onLink a m) =
      { m with device := { m.device with link := Action.final (a m.device.link) } } := by
  rw [onLink, final_onDevice, Device.final_onLink]

end Mount

end MidiStorage
