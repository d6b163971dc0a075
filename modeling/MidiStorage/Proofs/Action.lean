import MidiStorage.Action

namespace MidiStorage.Action

variable {σ τ α β : Type}

@[simp] theorem pure_apply (x : α) (s : σ) : (pure x : Action σ α) s = .ok x s := rfl

@[simp] theorem throw_apply (e : Failure) (s : σ) : (throw e : Action σ α) s = .error e s := rfl

@[simp] theorem get_apply (s : σ) : (get : Action σ σ) s = .ok s s := rfl

@[simp] theorem modify_apply (f : σ → σ) (s : σ) : (modify f : Action σ Unit) s = .ok () (f s) := rfl

@[simp] theorem ofExcept_ok (x : α) (s : σ) : (ofExcept (.ok x) : Action σ α) s = .ok x s := rfl

@[simp] theorem ofExcept_error (e : Failure) (s : σ) :
    (ofExcept (.error e) : Action σ α) s = .error e s := rfl

theorem ofExcept_eq_ok {r : Except Failure α} {s t : σ} {x : α} :
    (ofExcept r : Action σ α) s = .ok x t ↔ r = .ok x ∧ s = t := by
  cases r with
  | ok y => simp
  | error e => simp

theorem bind_apply (a : Action σ α) (f : α → Action σ β) (s : σ) :
    (a >>= f) s = match a s with
      | .ok x t => f x t
      | .error e t => .error e t := by
  change EStateM.bind a f s = _
  unfold EStateM.bind
  cases a s <;> rfl

theorem bind_of_ok {a : Action σ α} {f : α → Action σ β} {s t : σ} {x : α} (first : a s = .ok x t) :
    (a >>= f) s = f x t := by
  rw [bind_apply, first]

theorem bind_of_error {a : Action σ α} {f : α → Action σ β} {s t : σ} {e : Failure}
    (first : a s = .error e t) : (a >>= f) s = .error e t := by
  rw [bind_apply, first]

theorem bind_eq_ok {a : Action σ α} {f : α → Action σ β} {s u : σ} {y : β} :
    (a >>= f) s = .ok y u ↔ ∃ x t, a s = .ok x t ∧ f x t = .ok y u := by
  rw [bind_apply]
  cases a s with
  | ok x t =>
    constructor
    · intro second
      exact ⟨x, t, rfl, second⟩
    · rintro ⟨_, _, first, second⟩
      cases first
      exact second
  | error e t => simp

theorem bind_eq_error {a : Action σ α} {f : α → Action σ β} {s u : σ} {e : Failure} :
    (a >>= f) s = .error e u ↔
      a s = .error e u ∨ ∃ x t, a s = .ok x t ∧ f x t = .error e u := by
  rw [bind_apply]
  cases a s with
  | ok x t =>
    constructor
    · intro second
      exact Or.inr ⟨x, t, rfl, second⟩
    · rintro (first | ⟨_, _, first, second⟩)
      · cases first
      · cases first
        exact second
  | error e t => simp

theorem within_of_ok {view : σ → τ} {update : σ → τ → σ} {a : Action τ α} {s : σ} {x : α} {t : τ}
    (inner : a (view s) = .ok x t) : within view update a s = .ok x (update s t) := by
  rw [within, inner]

theorem within_of_error {view : σ → τ} {update : σ → τ → σ} {a : Action τ α} {s : σ} {e : Failure}
    {t : τ} (inner : a (view s) = .error e t) : within view update a s = .error e (update s t) := by
  rw [within, inner]

theorem outcome_of_ok {a : Action σ α} {s t : σ} {x : α} (inner : a s = .ok x t) :
    outcome a s = .ok (.ok x) t := by
  rw [outcome, inner]

theorem outcome_of_error {a : Action σ α} {s t : σ} {e : Failure} (inner : a s = .error e t) :
    outcome a s = .ok (.error e) t := by
  rw [outcome, inner]

def answer : EStateM.Result Failure σ α → Except Failure α
  | .ok x _ => .ok x
  | .error e _ => .error e

/-- The state in which an action ends, whether it succeeds or fails. -/
def final : EStateM.Result Failure σ α → σ
  | .ok _ s => s
  | .error _ s => s

theorem eq_ok_of_answer {result : EStateM.Result Failure σ α} {x : α}
    (answered : answer result = .ok x) : result = .ok x (final result) := by
  cases result with
  | ok y s =>
    cases answered
    rfl
  | error e s => cases answered

theorem answer_within (view : σ → τ) (update : σ → τ → σ) (a : Action τ α) (s : σ) :
    answer (within view update a s) = answer (a (view s)) := by
  rw [within]
  cases a (view s) <;> rfl

theorem final_within (view : σ → τ) (update : σ → τ → σ) (a : Action τ α) (s : σ) :
    final (within view update a s) = update s (final (a (view s))) := by
  rw [within]
  cases a (view s) <;> rfl

theorem answer_bind_pure (a : Action σ α) (f : α → β) (s : σ) :
    answer ((a >>= fun x => pure (f x)) s) = (answer (a s)).map f := by
  rw [bind_apply]
  cases a s <;> rfl

theorem final_bind_pure (a : Action σ α) (f : α → β) (s : σ) :
    final ((a >>= fun x => pure (f x)) s) = final (a s) := by
  rw [bind_apply]
  cases a s <;> rfl

/-- What held before holds afterwards, whether the action succeeds or fails. -/
def Preserves (I : σ → Prop) (a : Action σ α) : Prop := ∀ s, I s → I (final (a s))

section Preserves

variable {I : σ → Prop}

theorem Preserves.of_ok {a : Action σ α} (preserves : Preserves I a) {s t : σ} {x : α} (before : I s)
    (run : a s = .ok x t) : I t := by
  have after := preserves s before
  rw [run] at after
  exact after

theorem Preserves.of_error {a : Action σ α} (preserves : Preserves I a) {s t : σ} {e : Failure}
    (before : I s) (run : a s = .error e t) : I t := by
  have after := preserves s before
  rw [run] at after
  exact after

theorem Preserves.pure (I : σ → Prop) (x : α) : Preserves I (pure x : Action σ α) :=
  fun _ before => before

theorem Preserves.throw (I : σ → Prop) (e : Failure) : Preserves I (throw e : Action σ α) :=
  fun _ before => before

theorem Preserves.ofExcept (I : σ → Prop) (r : Except Failure α) :
    Preserves I (ofExcept r : Action σ α) := by
  cases r with
  | ok x => exact Preserves.pure I x
  | error e => exact Preserves.throw I e

theorem Preserves.get (I : σ → Prop) : Preserves I (get : Action σ σ) := fun _ before => before

theorem Preserves.modify {f : σ → σ} (kept : ∀ s, I s → I (f s)) :
    Preserves I (modify f : Action σ Unit) := kept

theorem Preserves.modifyGet {f : σ → α × σ} (kept : ∀ s, I s → I (f s).2) :
    Preserves I (modifyGet f : Action σ α) := kept

theorem Preserves.bind {a : Action σ α} {f : α → Action σ β} (first : Preserves I a)
    (rest : ∀ x, Preserves I (f x)) : Preserves I (a >>= f) := by
  intro s before
  cases run : a s with
  | ok x t =>
    rw [bind_of_ok run]
    exact rest x t (first.of_ok before run)
  | error e t =>
    rw [bind_of_error run]
    exact first.of_error before run

theorem Preserves.outcome {a : Action σ α} (inner : Preserves I a) : Preserves I (outcome a) := by
  intro s before
  cases run : a s with
  | ok x t =>
    rw [outcome_of_ok run]
    exact inner.of_ok before run
  | error e t =>
    rw [outcome_of_error run]
    exact inner.of_error before run

theorem Preserves.apart {view : σ → τ} {update : σ → τ → σ} (kept : ∀ s t, I s → I (update s t))
    (a : Action τ α) : Preserves I (within view update a) := by
  intro s before
  rw [final_within]
  exact kept s _ before

theorem Preserves.within {J : τ → Prop} {view : σ → τ} {update : σ → τ → σ}
    (back : ∀ s t, view (update s t) = t) {a : Action τ α} (inner : Preserves J a) :
    Preserves (fun s => J (view s)) (within view update a) := by
  intro s before
  rw [final_within, back]
  exact inner (view s) before

end Preserves

end MidiStorage.Action
