import ScanCatalog.Fault

/-!
# Actions

An action works on a state and either gives a result or fails. What it did to the
state before it failed stays done, unless the action that called it undoes it.

## Main definitions

* `Action σ α`: an action on states `σ` with results `α`, a monad;
* `Action.fail`, `Action.handle`, `Action.always`: failing, handling a fault, and doing
  something at the end in any case;
* `Action.zoom`: an action on a part of the state.
-/

namespace ScanCatalog

/-- An operation on a state that can fail. -/
def Action (σ α : Type) : Type := σ → Except Fault α × σ

namespace Action

variable {σ τ α β : Type}

/-- Runs an action from a state. -/
def run (action : Action σ α) (s : σ) : Except Fault α × σ := action s

/-- Gives a result and leaves the state alone. -/
def pure (a : α) : Action σ α := fun s => (.ok a, s)

/-- Fails and leaves the state alone. -/
def fail (fault : Fault) : Action σ α := fun s => (.error fault, s)

/-- Continues with the result of an action, unless it fails. -/
def bind (action : Action σ α) (next : α → Action σ β) : Action σ β := fun s =>
  match action s with
  | (.ok a, s) => next a s
  | (.error fault, s) => (.error fault, s)

/-- Continues an action that failed, from the state in which it did. -/
def handle (action : Action σ α) (handler : Fault → Action σ α) : Action σ α := fun s =>
  match action s with
  | (.ok a, s) => (.ok a, s)
  | (.error fault, s) => handler fault s

/-- Runs `last` after an action in any case. A fault of `last` hides the outcome. -/
def always (action : Action σ α) (last : Action σ Unit) : Action σ α := fun s =>
  match action s with
  | (outcome, s) =>
    match last s with
    | (.ok _, s) => (outcome, s)
    | (.error fault, s) => (.error fault, s)

/-- The outcome of an action as a result; an action so guarded does not fail. -/
def outcome (action : Action σ α) : Action σ (Except Fault α) := fun s =>
  match action s with
  | (result, s) => (.ok result, s)

instance : Monad (Action σ) where
  pure := pure
  bind := bind

/-- The state. -/
def get : Action σ σ := fun s => (.ok s, s)

/-- Puts a state in place of the present one. -/
def set (s : σ) : Action σ Unit := fun _ => (.ok (), s)

/-- Changes the state. -/
def modify (f : σ → σ) : Action σ Unit := fun s => (.ok (), f s)

/-- A result that does not depend on the state. -/
def ofExcept : Except Fault α → Action σ α
  | .ok a => pure a
  | .error fault => fail fault

/-- An action on a part of the state. -/
def zoom (view : τ → σ) (put : τ → σ → τ) (action : Action σ α) : Action τ α := fun t =>
  match action (view t) with
  | (result, s) => (result, put t s)

theorem run_apply (action : Action σ α) (s : σ) : action.run s = action s := rfl

@[simp] theorem run_pure (a : α) (s : σ) : (Pure.pure a : Action σ α).run s = (.ok a, s) := rfl

@[simp] theorem run_fail (fault : Fault) (s : σ) :
    (fail fault : Action σ α).run s = (.error fault, s) := rfl

theorem run_bind (action : Action σ α) (next : α → Action σ β) (s : σ) :
    (action >>= next).run s =
      match action.run s with
      | (.ok a, s) => (next a).run s
      | (.error fault, s) => (.error fault, s) := rfl

theorem run_handle (action : Action σ α) (handler : Fault → Action σ α) (s : σ) :
    (action.handle handler).run s =
      match action.run s with
      | (.ok a, s) => (.ok a, s)
      | (.error fault, s) => (handler fault).run s := rfl

theorem run_always (action : Action σ α) (last : Action σ Unit) (s : σ) :
    (action.always last).run s =
      match last.run (action.run s).2 with
      | (.ok _, s') => ((action.run s).1, s')
      | (.error fault, s') => (.error fault, s') := rfl

theorem run_zoom (view : τ → σ) (put : τ → σ → τ) (action : Action σ α) (t : τ) :
    (action.zoom view put).run t =
      ((action.run (view t)).1, put t (action.run (view t)).2) := rfl

theorem run_eq_of_fst {action : Action σ α} {s : σ} {result : Except Fault α}
    (h : (action.run s).1 = result) : action.run s = (result, (action.run s).2) := by rw [← h]

@[simp] theorem run_outcome (action : Action σ α) (s : σ) :
    action.outcome.run s = (.ok (action.run s).1, (action.run s).2) := rfl

@[simp] theorem run_get (s : σ) : (get : Action σ σ).run s = (.ok s, s) := rfl

@[simp] theorem run_set (s t : σ) : (set t).run s = (.ok (), t) := rfl

@[simp] theorem run_modify (f : σ → σ) (s : σ) : (modify f).run s = (.ok (), f s) := rfl

@[simp] theorem run_ofExcept (result : Except Fault α) (s : σ) :
    (ofExcept result : Action σ α).run s = (result, s) := by cases result <;> rfl

theorem bind_pure_comp_id (action : Action σ α) : bind action pure = action := by
  funext s
  unfold bind
  rcases action s with ⟨_ | _, _⟩ <;> rfl

theorem bind_assoc (action : Action σ α) (f : α → Action σ β) {γ : Type}
    (g : β → Action σ γ) : bind (bind action f) g = bind action fun a => bind (f a) g := by
  funext s
  unfold bind
  rcases action s with ⟨_ | _, _⟩ <;> rfl

instance : LawfulMonad (Action σ) :=
  LawfulMonad.mk' _ (fun x => bind_pure_comp_id x) (fun _ _ => rfl)
    (fun x f g => bind_assoc x f g)

end Action

end ScanCatalog
