import ScanCatalog.Action

/-!
# Outcomes of actions

Rules for saying where an action leads when only a part of its state matters. A relation
`Shows` says what a state shows of something simpler; an action *leads* from one such
thing to another with an outcome if it does so from every state that shows the first.

## Main definitions

* `Action.Leads`: an action gives an outcome and leaves a state that shows something;
* `Action.Ends`: an action gives one of some outcomes, each with what the state then shows;
* `Action.Keeps`: an action keeps a property of the state, whatever its outcome.
-/

namespace ScanCatalog.Action

variable {σ τ ρ α β : Type} {Shows : σ → ρ → Prop}

/-- From every state that shows `a`, the action gives `outcome` and leaves a state that
shows `b`. -/
def Leads (Shows : σ → ρ → Prop) (action : Action σ α) (a : ρ) (outcome : Except Fault α)
    (b : ρ) : Prop :=
  ∀ s, Shows s a → ∃ s', action.run s = (outcome, s') ∧ Shows s' b

/-- Two actions in a row give a result just if both do. -/
theorem run_bind_eq_ok {action : Action σ α} {next : α → Action σ β} {b : β} {s s' : σ} :
    (action >>= next).run s = (.ok b, s') ↔
      ∃ a t, action.run s = (.ok a, t) ∧ (next a).run t = (.ok b, s') := by
  rw [run_bind]
  rcases action.run s with ⟨_ | a, t⟩
  · simp
  · constructor
    · intro h
      exact ⟨a, t, rfl, h⟩
    · rintro ⟨_, _, heq, h⟩
      cases heq
      exact h

/-- Two actions in a row end with a fault of the first, or as the second ends. -/
theorem run_bind_cases {action : Action σ α} {next : α → Action σ β} {outcome : Except Fault β}
    {s s' : σ} (h : (action >>= next).run s = (outcome, s')) :
    (∃ fault, action.run s = (.error fault, s') ∧ outcome = .error fault) ∨
      ∃ a t, action.run s = (.ok a, t) ∧ (next a).run t = (outcome, s') := by
  rw [run_bind] at h
  rcases hrun : action.run s with ⟨fault | a, t⟩ <;> rw [hrun] at h
  · cases h
    exact .inl ⟨fault, rfl, rfl⟩
  · exact .inr ⟨a, t, rfl, h⟩

/-- An action on a part changes nothing else. -/
theorem run_zoom_eq {view : τ → σ} {put : τ → σ → τ} {action : Action σ α}
    {outcome : Except Fault α} {t t' : τ} (h : (action.zoom view put).run t = (outcome, t')) :
    ∃ s, action.run (view t) = (outcome, s) ∧ t' = put t s := by
  rw [run_zoom] at h
  obtain ⟨houtcome, rfl⟩ := Prod.mk.inj h
  exact ⟨_, Prod.ext houtcome rfl, rfl⟩

theorem run_ofExcept_eq {result outcome : Except Fault α} {s s' : σ}
    (h : (Action.ofExcept result : Action σ α).run s = (outcome, s')) :
    result = outcome ∧ s = s' := by
  rw [run_ofExcept] at h
  exact Prod.mk.inj h

namespace Leads

variable {a b c : ρ}

theorem pure (x : α) : Leads Shows (Action.pure x) a (.ok x) a :=
  fun s h => ⟨s, rfl, h⟩

theorem fail (fault : Fault) : Leads Shows (Action.fail fault : Action σ α) a (.error fault) a :=
  fun s h => ⟨s, rfl, h⟩

theorem ofExcept (result : Except Fault α) :
    Leads Shows (Action.ofExcept result : Action σ α) a result a :=
  fun s h => ⟨s, run_ofExcept result s, h⟩

/-- A result carries over to what follows it. -/
theorem bind {action : Action σ α} {next : α → Action σ β} {x : α} {outcome : Except Fault β}
    (h : Leads Shows action a (.ok x) b) (hnext : Leads Shows (next x) b outcome c) :
    Leads Shows (action >>= next) a outcome c := by
  intro s hs
  obtain ⟨s₁, hrun, hs₁⟩ := h s hs
  obtain ⟨s₂, hrun₂, hs₂⟩ := hnext s₁ hs₁
  refine ⟨s₂, ?_, hs₂⟩
  rw [run_bind, hrun]
  exact hrun₂

/-- A fault skips what follows it. -/
theorem bind_error {action : Action σ α} {next : α → Action σ β} {fault : Fault}
    (h : Leads Shows action a (.error fault) b) :
    Leads Shows (action >>= next) a (.error fault) b := by
  intro s hs
  obtain ⟨s₁, hrun, hs₁⟩ := h s hs
  exact ⟨s₁, by rw [run_bind, hrun], hs₁⟩

/-- A step that does not depend on the state only changes the outcome. -/
theorem bind_ofExcept {action : Action σ α} {f : α → Except Fault β} {outcome : Except Fault α}
    (h : Leads Shows action a outcome b) :
    Leads Shows (action >>= fun x => Action.ofExcept (f x)) a (outcome >>= f) b := by
  cases outcome with
  | error fault => exact h.bind_error
  | ok x => exact h.bind (Leads.ofExcept (f x))

/-- A handler does not touch a result. -/
theorem handle_ok {action : Action σ α} {handler : Fault → Action σ α} {x : α}
    (h : Leads Shows action a (.ok x) b) : Leads Shows (action.handle handler) a (.ok x) b := by
  intro s hs
  obtain ⟨s₁, hrun, hs₁⟩ := h s hs
  exact ⟨s₁, by rw [run_handle, hrun], hs₁⟩

/-- A handler goes on from the state in which its action failed. -/
theorem handle_error {action : Action σ α} {handler : Fault → Action σ α} {fault : Fault}
    {outcome : Except Fault α} (h : Leads Shows action a (.error fault) b)
    (hhandler : Leads Shows (handler fault) b outcome c) :
    Leads Shows (action.handle handler) a outcome c := by
  intro s hs
  obtain ⟨s₁, hrun, hs₁⟩ := h s hs
  obtain ⟨s₂, hrun₂, hs₂⟩ := hhandler s₁ hs₁
  refine ⟨s₂, ?_, hs₂⟩
  rw [run_handle, hrun]
  exact hrun₂

/-- What is done at the end does not change the outcome unless it fails. -/
theorem always {action : Action σ α} {last : Action σ Unit} {outcome : Except Fault α}
    (h : Leads Shows action a outcome b) (hlast : Leads Shows last b (.ok ()) c) :
    Leads Shows (action.always last) a outcome c := by
  intro s hs
  obtain ⟨s₁, hrun, hs₁⟩ := h s hs
  obtain ⟨s₂, hrun₂, hs₂⟩ := hlast s₁ hs₁
  refine ⟨s₂, ?_, hs₂⟩
  rw [run_always, hrun, hrun₂]

/-- An action has one outcome only. -/
theorem outcome_eq {action : Action σ α} {outcome result : Except Fault α} {s s' : σ}
    (h : Leads Shows action a outcome b) (hs : Shows s a) (hrun : action.run s = (result, s')) :
    result = outcome ∧ Shows s' b := by
  obtain ⟨t, ht, hb⟩ := h s hs
  rw [hrun] at ht
  cases ht
  exact ⟨rfl, hb⟩

end Leads

/-- From every state that shows `a`, the action ends with an outcome and in a state that shows
something that goes with it. -/
def Ends (Shows : σ → ρ → Prop) (action : Action σ α) (a : ρ)
    (ending : Except Fault α → ρ → Prop) : Prop :=
  ∀ s, Shows s a → ∃ b, ending (action.run s).1 b ∧ Shows (action.run s).2 b

theorem Leads.ends {a b : ρ} {action : Action σ α} {outcome : Except Fault α}
    {ending : Except Fault α → ρ → Prop} (h : Leads Shows action a outcome b)
    (hending : ending outcome b) : Ends Shows action a ending := by
  intro s hs
  obtain ⟨s₁, hrun, hs₁⟩ := h s hs
  exact ⟨b, by rw [hrun]; exact hending, by rw [hrun]; exact hs₁⟩

/-- An action that always gives the same result goes on to what follows it. -/
theorem Leads.bind_ends {a b : ρ} {action : Action σ α} {next : α → Action σ β} {x : α}
    {ending : Except Fault β → ρ → Prop} (h : Leads Shows action a (.ok x) b)
    (hnext : Ends Shows (next x) b ending) : Ends Shows (action >>= next) a ending := by
  intro s hs
  obtain ⟨s₁, hrun, hs₁⟩ := h s hs
  rw [run_bind, hrun]
  exact hnext s₁ hs₁

namespace Ends

variable {a : ρ} {ending : Except Fault α → ρ → Prop}

/-- A result goes on to what follows it, and a fault skips that. -/
theorem bind {action : Action σ α} {next : α → Action σ β} {ending' : Except Fault β → ρ → Prop}
    (h : Ends Shows action a ending)
    (herror : ∀ fault b, ending (.error fault) b → ending' (.error fault) b)
    (hnext : ∀ x b, ending (.ok x) b → Ends Shows (next x) b ending') :
    Ends Shows (action >>= next) a ending' := by
  intro s hs
  obtain ⟨b, hb, hs₁⟩ := h s hs
  rw [run_bind]
  rcases hrun : action.run s with ⟨fault | x, s₁⟩ <;> rw [hrun] at hb hs₁
  · exact ⟨b, herror fault b hb, hs₁⟩
  · exact hnext x b hb s₁ hs₁

/-- A handler goes on from the state in which its action failed, and does not touch a result. -/
theorem handle {action : Action σ α} {handler : Fault → Action σ α}
    {ending' : Except Fault α → ρ → Prop} (h : Ends Shows action a ending)
    (hok : ∀ x b, ending (.ok x) b → ending' (.ok x) b)
    (hhandler : ∀ fault b, ending (.error fault) b → Ends Shows (handler fault) b ending') :
    Ends Shows (action.handle handler) a ending' := by
  intro s hs
  obtain ⟨b, hb, hs₁⟩ := h s hs
  rw [run_handle]
  rcases hrun : action.run s with ⟨fault | x, s₁⟩ <;> rw [hrun] at hb hs₁
  · exact hhandler fault b hb s₁ hs₁
  · exact ⟨b, hok x b hb, hs₁⟩

/-- What is done at the end and shows no more changes no ending. -/
theorem always {action : Action σ α} {last : Action σ Unit} (h : Ends Shows action a ending)
    (hlast : ∀ b, Leads Shows last b (.ok ()) b) : Ends Shows (action.always last) a ending := by
  intro s hs
  obtain ⟨b, hb, hs₁⟩ := h s hs
  obtain ⟨s₂, hrun, hs₂⟩ := hlast b _ hs₁
  refine ⟨b, ?_, ?_⟩
  · rw [run_always, hrun]
    exact hb
  · rw [run_always, hrun]
    exact hs₂

end Ends

/-- The action keeps a property of the state, whether it fails or not. -/
def Keeps (property : σ → Prop) (action : Action σ α) : Prop :=
  ∀ s, property s → property (action.run s).2

namespace Keeps

variable {property : σ → Prop}

theorem of_run {action : Action σ α} {outcome : Except Fault α} {s s' : σ}
    (h : Keeps property action) (hs : property s) (hrun : action.run s = (outcome, s')) :
    property s' := by
  have hkept := h s hs
  rwa [hrun] at hkept

theorem pure (x : α) : Keeps property (Action.pure x : Action σ α) := fun _ h => h

theorem fail (fault : Fault) : Keeps property (Action.fail fault : Action σ α) := fun _ h => h

theorem get : Keeps property (Action.get : Action σ σ) := fun _ h => h

theorem ofExcept (result : Except Fault α) :
    Keeps property (Action.ofExcept result : Action σ α) := by
  intro s h
  rw [run_ofExcept]
  exact h

theorem bind {action : Action σ α} {next : α → Action σ β} (h : Keeps property action)
    (hnext : ∀ x, Keeps property (next x)) : Keeps property (action >>= next) := by
  intro s hs
  rw [run_bind]
  have h₁ := h s hs
  rcases hrun : action.run s with ⟨_ | x, s₁⟩ <;> rw [hrun] at h₁
  · exact h₁
  · exact hnext x s₁ h₁

theorem handle {action : Action σ α} {handler : Fault → Action σ α} (h : Keeps property action)
    (hhandler : ∀ fault, Keeps property (handler fault)) :
    Keeps property (action.handle handler) := by
  intro s hs
  rw [run_handle]
  have h₁ := h s hs
  rcases hrun : action.run s with ⟨fault | _, s₁⟩ <;> rw [hrun] at h₁
  · exact hhandler fault s₁ h₁
  · exact h₁

theorem always {action : Action σ α} {last : Action σ Unit} (h : Keeps property action)
    (hlast : Keeps property last) : Keeps property (action.always last) := by
  intro s hs
  rw [run_always]
  have h₂ := hlast _ (h s hs)
  rcases hrun : last.run (action.run s).2 with ⟨_ | _, s₂⟩ <;> rw [hrun] at h₂
  · exact h₂
  · exact h₂

end Keeps

end ScanCatalog.Action
