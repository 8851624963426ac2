import Mathlib.Data.List.Basic
import ScanCatalog.Batch

/-!
# What a batch gives

A batch does its task for one item after the other, whatever the task gives. Its result
holds the records of the items that succeeded, in order, and the positions of those that
failed, in increasing order.

## Main definitions

* `Steps`: items one after the other, each with its outcome;
* `Action.CausedStep`: a step that fails for a cause, if it fails;
* `faultsOf`, `errorsFrom`: the faults and the errors of outcomes;
* `BatchResult.addAll`: a result with the outcomes of items;
* `BatchResult.Collects`: a result that holds some outcomes, and nothing else.

## Main statements

* `BatchResult.addAll_eq`: what outcomes add to a result;
* `runBatch_collects`: a batch collects the outcomes of its items;
* `runBatch_steps`: a batch as the steps of its items;
* `runBatch_caused`: the errors of a batch, and their causes;
* `Steps.keeps`: what each step keeps, all keep.
-/

namespace ScanCatalog

variable {σ α β : Type}

/-- Items one after the other, each with its outcome. -/
inductive Steps (step : σ → α → β → σ → Prop) : σ → List α → List β → σ → Prop
  | nil (s : σ) : Steps step s [] [] s
  | cons {s t s' : σ} {item : α} {items : List α} {outcome : β} {outcomes : List β}
    (hstep : step s item outcome t) (hrest : Steps step t items outcomes s') :
    Steps step s (item :: items) (outcome :: outcomes) s'

namespace Steps

variable {step : σ → α → β → σ → Prop} {s s' : σ} {items : List α} {outcomes : List β}

theorem length_eq (h : Steps step s items outcomes s') : outcomes.length = items.length := by
  induction h with
  | nil => rfl
  | cons _ _ ih => exact congrArg (· + 1) ih

/-- What a step keeps, counted, is kept by all. -/
theorem keeps {property : Nat → σ → Prop} (h : Steps step s items outcomes s')
    (hstep : ∀ item ∈ items, ∀ n s outcome s', property n s → step s item outcome s' →
      property (n + 1) s') {n : Nat} (hs : property n s) : property (n + items.length) s' := by
  induction h generalizing n with
  | nil => exact hs
  | @cons _ _ _ item items _ _ hfirst _ ih =>
    obtain ⟨hitem, hitems⟩ := List.forall_mem_cons.mp hstep
    have hrest := ih hitems (hitem n _ _ _ hs hfirst)
    rwa [List.length_cons, Nat.add_comm items.length, ← Nat.add_assoc]

/-- A step that keeps a property of the state is refined by what holds of it where the property
does. -/
theorem refine {step' : σ → α → β → σ → Prop} {property : σ → Prop}
    (h : Steps step s items outcomes s') (hs : property s)
    (hstep : ∀ item ∈ items, ∀ s outcome s', property s → step s item outcome s' →
      property s' ∧ step' s item outcome s') : Steps step' s items outcomes s' := by
  induction h with
  | nil s => exact .nil s
  | cons hfirst _ ih =>
    obtain ⟨hitem, hitems⟩ := List.forall_mem_cons.mp hstep
    obtain ⟨ht, hrefined⟩ := hitem _ _ _ hs hfirst
    exact .cons hrefined (ih ht hitems)

end Steps

/-- The step that a task makes for an item. -/
def Action.Step (task : α → Action σ β) (s : σ) (item : α) (outcome : Except Fault β) (s' : σ) :
    Prop := (task item).run s = (outcome, s')

/-- The step that a task makes for an item; if it fails, there is a cause for its fault. -/
def Action.CausedStep (task : α → Action σ β) (Cause : σ → α → Fault → Prop) (s : σ) (item : α)
    (outcome : Except Fault β) (s' : σ) : Prop :=
  Action.Step task s item outcome s' ∧ ∀ fault, outcome = .error fault → Cause s item fault

/-- The faults of the items that failed. -/
def faultsOf (outcomes : List (Except Fault β)) : List Fault :=
  outcomes.filterMap fun outcome =>
    match outcome with
    | .ok _ => none
    | .error fault => some fault

/-- The error about an outcome at a position, if it is one. -/
def RecordError.ofOutcome? : Except Fault β × Nat → Option RecordError
  | (.ok _, _) => none
  | (.error fault, index) => some ⟨index, fault.report⟩

/-- The errors of outcomes, the first of which is at a position. -/
def errorsFrom (index : Nat) (outcomes : List (Except Fault β)) : List RecordError :=
  (outcomes.zipIdx index).filterMap RecordError.ofOutcome?

@[simp] theorem errorsFrom_ok (index : Nat) (record : β) (outcomes : List (Except Fault β)) :
    errorsFrom index (.ok record :: outcomes) = errorsFrom (index + 1) outcomes := rfl

@[simp] theorem errorsFrom_error (index : Nat) (fault : Fault)
    (outcomes : List (Except Fault β)) :
    errorsFrom index (.error fault :: outcomes) =
      ⟨index, fault.report⟩ :: errorsFrom (index + 1) outcomes := rfl

/-- The errors are at the positions of the items that failed. -/
theorem map_index_errorsFrom (index : Nat) (outcomes : List (Except Fault β)) :
    (errorsFrom index outcomes).map (·.index) =
      (outcomes.findIdxs (fun outcome => !outcome.isOk) index).map Int.ofNat := by
  induction outcomes generalizing index with
  | nil => rfl
  | cons outcome outcomes ih =>
    rw [List.findIdxs_cons]
    cases outcome with
    | ok record => exact ih (index + 1)
    | error fault => exact congrArg (List.cons (index : Int)) (ih (index + 1))

/-- The errors are the reports of the faults. -/
theorem map_text_errorsFrom (index : Nat) (outcomes : List (Except Fault β)) :
    (errorsFrom index outcomes).map (·.text) = (faultsOf outcomes).map Fault.report := by
  induction outcomes generalizing index with
  | nil => rfl
  | cons outcome outcomes ih =>
    cases outcome with
    | ok record => exact ih (index + 1)
    | error fault => exact congrArg (List.cons fault.report) (ih (index + 1))

namespace BatchResult

/-- The result with the outcomes of the items from a position on. -/
def addAll (result : BatchResult) (index : Int) : List (Except Fault Entries) → BatchResult
  | [] => result
  | outcome :: outcomes => (result.add index outcome).addAll (index + 1) outcomes

/-- The outcomes are added after what a result holds already: the records of the items that
succeeded, and the errors and faults of those that failed. -/
theorem addAll_eq (result : BatchResult) (index : Nat) (outcomes : List (Except Fault Entries)) :
    result.addAll index outcomes =
      { records := result.records ++ outcomes.filterMap Except.toOption
        errors := result.errors ++ errorsFrom index outcomes
        total := result.total
        faults := result.faults ++ faultsOf outcomes } := by
  induction outcomes generalizing result index with
  | nil =>
    change result = ⟨result.records ++ [], result.errors ++ [], result.total, result.faults ++ []⟩
    rw [List.append_nil, List.append_nil, List.append_nil]
  | cons outcome outcomes ih =>
    refine (ih (result.add index outcome) (index + 1)).trans ?_
    cases outcome with
    | ok record =>
      dsimp only [add]
      rw [List.append_assoc]
      rfl
    | error fault =>
      dsimp only [add]
      rw [List.append_assoc, List.append_assoc]
      rfl

/-- A result that holds the outcomes of items, and nothing else. -/
structure Collects (result : BatchResult) (outcomes : List (Except Fault Entries)) : Prop where
  records : result.records = outcomes.filterMap Except.toOption
  errors : result.errors = errorsFrom 0 outcomes
  faults : result.faults = faultsOf outcomes
  total : result.total = outcomes.length

theorem collects_addAll (outcomes : List (Except Fault Entries)) :
    (addAll { records := [], errors := [], total := outcomes.length } 0 outcomes).Collects
      outcomes := by
  have heq := addAll_eq { records := [], errors := [], total := outcomes.length } 0 outcomes
  exact ⟨congrArg records heq, congrArg errors heq, congrArg faults heq, congrArg total heq⟩

end BatchResult

/-- The task is done for each item, and the result has all outcomes. -/
theorem runBatchFrom_steps (task : α → Action σ Entries) (result : BatchResult) (index : Int)
    (items : List α) (s : σ) :
    ∃ outcomes s', Steps (Action.Step task) s items outcomes s' ∧
      (runBatchFrom task result index items).run s =
        (.ok (result.addAll index outcomes), s') := by
  -- a failed item does not stop the batch, so the next begins wherever this one left off
  induction items generalizing result index s with
  | nil => exact ⟨[], s, .nil s, rfl⟩
  | cons item items ih =>
    obtain ⟨outcomes, s', hsteps, hrun⟩ :=
      ih (result.add index ((task item).run s).1) (index + 1) ((task item).run s).2
    refine ⟨_ :: outcomes, s', .cons rfl hsteps, ?_⟩
    unfold runBatchFrom
    rw [Action.run_bind, Action.run_outcome]
    exact hrun

/-- A batch gives a result, which holds the outcomes of its items. -/
theorem runBatch_collects (task : α → Action σ Entries) (items : List α) (s : σ) :
    ∃ result outcomes s', (runBatch task items).run s = (.ok result, s') ∧
      Steps (Action.Step task) s items outcomes s' ∧ result.Collects outcomes := by
  obtain ⟨outcomes, s', hsteps, hrun⟩ :=
    runBatchFrom_steps task { records := [], errors := [], total := items.length } 0 items s
  have hcollects := BatchResult.collects_addAll outcomes
  rw [hsteps.length_eq] at hcollects
  exact ⟨_, outcomes, s', hrun, hsteps, hcollects⟩

/-- A batch does its task for each item. Its records are those of the items that succeeded,
and its errors are at the positions of those that failed. -/
theorem runBatch_steps (task : α → Action σ Entries) (items : List α) (s : σ) :
    ∃ result outcomes s', (runBatch task items).run s = (.ok result, s') ∧
      Steps (Action.Step task) s items outcomes s' ∧
      result.records = outcomes.filterMap Except.toOption ∧
      result.errors.map (·.index) =
        (outcomes.findIdxs fun outcome => !outcome.isOk).map Int.ofNat := by
  obtain ⟨result, outcomes, s', hrun, hsteps, hcollects⟩ := runBatch_collects task items s
  refine ⟨result, outcomes, s', hrun, hsteps, hcollects.records, ?_⟩
  rw [hcollects.errors, map_index_errorsFrom]

/-- A batch of a task gives a result, and its errors are those of the items that failed. If the
task keeps a property of the state and fails for causes where that holds, each of the errors has
such a cause. -/
theorem runBatch_caused {task : α → Action σ Entries} {Cause : σ → α → Fault → Prop}
    {property : σ → Prop} {items : List α} {s : σ} (hs : property s)
    (htask : ∀ item ∈ items, ∀ s outcome s', property s → Action.Step task s item outcome s' →
      property s' ∧ ∀ fault, outcome = .error fault → Cause s item fault) :
    ∃ result outcomes s', (runBatch task items).run s = (.ok result, s') ∧
      Steps (Action.CausedStep task Cause) s items outcomes s' ∧
      result.faults = faultsOf outcomes ∧
      result.errors.map (·.text) = (faultsOf outcomes).map Fault.report := by
  obtain ⟨result, outcomes, s', hrun, hsteps, hcollects⟩ := runBatch_collects task items s
  refine ⟨result, outcomes, s', hrun, hsteps.refine hs ?_, hcollects.faults, ?_⟩
  · intro item hitem s outcome s' hs hstep
    obtain ⟨hs', hcause⟩ := htask item hitem s outcome s' hs hstep
    exact ⟨hs', hstep, hcause⟩
  · rw [hcollects.errors, map_text_errorsFrom]

end ScanCatalog
