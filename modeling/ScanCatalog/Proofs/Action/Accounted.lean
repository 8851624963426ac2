import ScanCatalog.Proofs.Action.Batch

/-!
# What becomes of each item of a batch

A batch gives a result whatever its task does, and the result accounts for each item once: it
holds the record of an item that succeeded, or one error at the position of an item that failed.

## Main definitions

* `Fault.IsLine`: the line about a fault;
* `BatchResult.AccountsFor`: what a result tells about each of some outcomes, and about all.

## Main statements

* `mem_errorsFrom_zero`, `errorsFrom_increasing`: the errors, by the positions of the outcomes;
* `BatchResult.status_eq_success_iff`, `BatchResult.status_eq_failure_iff`,
  `BatchResult.status_eq_partialSuccess_iff`: how a batch went;
* `BatchResult.Collects.accountsFor`: a result accounts for the outcomes that it holds;
* `runBatch_accounts`: a batch accounts for its items.
-/

namespace ScanCatalog

variable {σ α β : Type}

/-- The line about a fault: its message for one that is reported on purpose, and the name of its
kind and the message for any other. -/
structure Fault.IsLine (fault : Fault) (line : Text) : Prop where
  reported : fault.isReported = true → line = fault.message
  unreported : fault.isReported = false → line = fault.kind ++ ": " ++ fault.message

theorem Fault.isLine_iff {fault : Fault} {line : Text} :
    fault.IsLine line ↔ line = fault.report := by
  unfold Fault.report
  constructor
  · rintro ⟨hreported, hunreported⟩
    split
    · next h => exact hreported h
    · next h => exact hunreported (Bool.eq_false_iff.mpr h)
  · rintro rfl
    exact ⟨fun h => if_pos h, fun h => if_neg (Bool.eq_false_iff.mp h)⟩

/-! ### The records and the errors of outcomes -/

theorem RecordError.ofOutcome?_eq_some {outcome : Except Fault β} {index : Nat}
    {error : RecordError} (h : RecordError.ofOutcome? (outcome, index) = some error) :
    ∃ fault, outcome = .error fault ∧ error = ⟨index, fault.report⟩ := by
  cases outcome with
  | ok record => cases h
  | error fault => exact ⟨fault, rfl, (Option.some.inj h).symm⟩

/-- An error stands for an item that failed. -/
theorem mem_errorsFrom_zero {outcomes : List (Except Fault β)} {error : RecordError} :
    error ∈ errorsFrom 0 outcomes ↔ ∃ (index : Nat) (fault : Fault),
      outcomes[index]? = some (.error fault) ∧ error = ⟨index, fault.report⟩ := by
  unfold errorsFrom
  rw [List.mem_filterMap]
  constructor
  · rintro ⟨⟨outcome, index⟩, hmem, herror⟩
    obtain ⟨fault, rfl, rfl⟩ := RecordError.ofOutcome?_eq_some herror
    exact ⟨index, fault, List.mk_mem_zipIdx_iff_getElem?.mp hmem, rfl⟩
  · rintro ⟨index, fault, hfault, rfl⟩
    exact ⟨(.error fault, index), List.mk_mem_zipIdx_iff_getElem?.mpr hfault, rfl⟩

/-- The errors are in the order of their positions, and no two of them are at the same. -/
theorem errorsFrom_increasing (index : Nat) (outcomes : List (Except Fault β)) :
    (errorsFrom index outcomes).Pairwise (·.index < ·.index) := by
  have hpositions : (outcomes.zipIdx index).Pairwise (·.2 < ·.2) := by
    refine List.pairwise_map.mp ?_
    rw [List.zipIdx_map_snd]
    exact List.pairwise_lt_range'
  refine List.pairwise_filterMap.mpr (hpositions.imp fun hlt a ha b hb => ?_)
  obtain ⟨_, -, rfl⟩ := RecordError.ofOutcome?_eq_some ha
  obtain ⟨_, -, rfl⟩ := RecordError.ofOutcome?_eq_some hb
  exact Int.ofNat_lt.mpr hlt

/-- Each outcome gives a record or an error. -/
theorem length_records_add_length_errorsFrom (index : Nat) (outcomes : List (Except Fault β)) :
    (outcomes.filterMap Except.toOption).length + (errorsFrom index outcomes).length =
      outcomes.length := by
  induction outcomes generalizing index with
  | nil => rfl
  | cons outcome outcomes ih =>
    cases outcome with
    | ok record =>
      rw [errorsFrom_ok, List.length_cons, ← ih (index + 1)]
      exact Nat.add_right_comm _ 1 _
    | error fault =>
      rw [errorsFrom_error, List.length_cons, List.length_cons, ← ih (index + 1)]
      rfl

theorem errorsFrom_eq_nil_iff {index : Nat} {outcomes : List (Except Fault β)} :
    errorsFrom index outcomes = [] ↔ ∀ outcome ∈ outcomes, outcome.isOk = true := by
  induction outcomes generalizing index with
  | nil => exact iff_of_true rfl nofun
  | cons outcome outcomes ih =>
    rw [List.forall_mem_cons]
    cases outcome with
    | ok record => exact ih.trans (and_iff_right rfl).symm
    | error fault => exact iff_of_false nofun fun h => nomatch h.1

theorem filterMap_toOption_eq_nil_iff {outcomes : List (Except Fault β)} :
    outcomes.filterMap Except.toOption = [] ↔ ∀ outcome ∈ outcomes, outcome.isOk = false := by
  rw [List.filterMap_eq_nil_iff]
  refine forall₂_congr fun outcome _ => ?_
  cases outcome with
  | ok record => exact iff_of_false nofun nofun
  | error fault => exact iff_of_true rfl rfl

/-! ### The account of a result -/

namespace BatchResult

variable {result : BatchResult} {outcomes : List (Except Fault Entries)}

theorem status_eq_success_iff : result.status = .success ↔ result.errors = [] := by
  unfold status
  cases result.errors <;> cases result.records <;> simp

theorem status_eq_failure_iff :
    result.status = .failure ↔ result.errors ≠ [] ∧ result.records = [] := by
  unfold status
  cases result.errors <;> cases result.records <;> simp

theorem status_eq_partialSuccess_iff :
    result.status = .partialSuccess ↔ result.errors ≠ [] ∧ result.records ≠ [] := by
  unfold status
  cases result.errors <;> cases result.records <;> simp

/-- A result that has the outcomes of items, each once: the records of those that succeeded, in
order, and the errors of those that failed, in the order of their positions, each with the line
about its fault. The status tells whether all of them succeeded or failed. -/
structure AccountsFor (result : BatchResult) (outcomes : List (Except Fault Entries)) : Prop where
  records : result.records = outcomes.filterMap Except.toOption
  errors : ∀ error, error ∈ result.errors ↔ ∃ (index : Nat) (fault : Fault),
    outcomes[index]? = some (.error fault) ∧ error.index = index ∧ fault.IsLine error.text
  increasing : result.errors.Pairwise (·.index < ·.index)
  faults : result.faults = faultsOf outcomes
  counts : result.records.length + result.errors.length = result.total
  total : result.total = outcomes.length
  success : result.status = .success ↔ ∀ outcome ∈ outcomes, outcome.isOk = true
  failure : result.status = .failure ↔
    outcomes ≠ [] ∧ ∀ outcome ∈ outcomes, outcome.isOk = false
  partialSuccess : result.status = .partialSuccess ↔
    (∃ outcome ∈ outcomes, outcome.isOk = true) ∧ ∃ outcome ∈ outcomes, outcome.isOk = false

namespace Collects

theorem length_add_length (h : result.Collects outcomes) :
    result.records.length + result.errors.length = outcomes.length := by
  rw [h.records, h.errors, length_records_add_length_errorsFrom]

theorem errors_eq_nil_iff (h : result.Collects outcomes) :
    result.errors = [] ↔ ∀ outcome ∈ outcomes, outcome.isOk = true := by
  rw [h.errors, errorsFrom_eq_nil_iff]

theorem records_eq_nil_iff (h : result.Collects outcomes) :
    result.records = [] ↔ ∀ outcome ∈ outcomes, outcome.isOk = false := by
  rw [h.records, filterMap_toOption_eq_nil_iff]

theorem mem_errors (h : result.Collects outcomes) (error : RecordError) :
    error ∈ result.errors ↔ ∃ (index : Nat) (fault : Fault),
      outcomes[index]? = some (.error fault) ∧ error.index = index ∧
        fault.IsLine error.text := by
  rw [h.errors, mem_errorsFrom_zero]
  refine exists₂_congr fun index fault => and_congr_right fun _ => ?_
  rw [Fault.isLine_iff]
  cases error
  exact Iff.of_eq (RecordError.mk.injEq ..)

/-- Where there are no records, there is an error for each outcome. -/
theorem failure_iff (h : result.Collects outcomes) :
    result.status = .failure ↔ outcomes ≠ [] ∧ ∀ outcome ∈ outcomes, outcome.isOk = false := by
  rw [status_eq_failure_iff, ← h.records_eq_nil_iff]
  refine and_congr_left fun hrecords => not_congr ?_
  have hlength := h.length_add_length
  rw [hrecords, List.length_nil, Nat.zero_add] at hlength
  rw [← List.length_eq_zero_iff, hlength, List.length_eq_zero_iff]

theorem partialSuccess_iff (h : result.Collects outcomes) :
    result.status = .partialSuccess ↔
      (∃ outcome ∈ outcomes, outcome.isOk = true) ∧ ∃ outcome ∈ outcomes, outcome.isOk = false := by
  rw [status_eq_partialSuccess_iff, Ne, Ne, h.errors_eq_nil_iff, h.records_eq_nil_iff, and_comm]
  simp only [not_forall, Bool.not_eq_true, Bool.not_eq_false, exists_prop]

theorem accountsFor (h : result.Collects outcomes) : result.AccountsFor outcomes where
  records := h.records
  errors := h.mem_errors
  increasing := h.errors ▸ errorsFrom_increasing 0 outcomes
  faults := h.faults
  counts := by rw [h.total, ← h.length_add_length, Int.natCast_add]
  total := h.total
  success := status_eq_success_iff.trans h.errors_eq_nil_iff
  failure := h.failure_iff
  partialSuccess := h.partialSuccess_iff

end Collects

end BatchResult

/-- A batch with one worker or more gives a result, whatever its items and its task are and whatever
state it starts from. The result accounts for the outcome of each item, in the order of the
items. -/
theorem runBatch_accounts {workers : Int} (hworkers : 1 ≤ workers)
    (task : α → Action σ Entries) (items : List α) (s : σ) :
    ∃ result outcomes s',
      (Action.ofExcept (checkWorkers workers) >>= fun _ => runBatch task items).run s =
        (.ok result, s') ∧
      Steps (Action.Step task) s items outcomes s' ∧ result.AccountsFor outcomes ∧
      result.total = items.length := by
  have hchecked : checkWorkers workers = .ok () := if_neg (Int.not_lt.mpr hworkers)
  obtain ⟨result, outcomes, s', hrun, hsteps, hcollects⟩ := runBatch_collects task items s
  refine ⟨result, outcomes, s', ?_, hsteps, hcollects.accountsFor, ?_⟩
  · rw [Action.run_bind, Action.run_ofExcept, hchecked]
    exact hrun
  · rw [hcollects.total, hsteps.length_eq]

/-- Outcomes of four items: a record, a fault that is reported on purpose, one that is not, and one
of a foreign kind that has the name of a family. -/
def mixedOutcomes : List (Except Fault Entries) :=
  [.ok [("n", .int 0)],
    .error (.stated { kind := "ValidationError", message := "record 1 is bad" }),
    .error (.stated { kind := "KeyError", message := "'boom'" }),
    .error (.stated { kind := "ValidationError", message := "'n' is missing", family := none })]

/-- A batch of items that have these outcomes. -/
def mixedBatch : Action Unit BatchResult :=
  Action.ofExcept (checkWorkers 8) >>= fun _ => runBatch Action.ofExcept mixedOutcomes

/-- The account of that batch. -/
theorem runBatch_accounts_mixed :
    (1 : Int) ≤ 8 ∧ ∃ result outcomes, mixedBatch.run () = (.ok result, ()) ∧
      result.AccountsFor outcomes ∧ result.status = .partialSuccess ∧
      result.errors = [⟨1, "record 1 is bad"⟩, ⟨2, "KeyError: 'boom'"⟩,
        ⟨3, "ValidationError: 'n' is missing"⟩] := by
  have hworkers : (1 : Int) ≤ 8 := by decide
  obtain ⟨result, outcomes, ⟨⟩, hrun, -, haccounts, -⟩ :=
    runBatch_accounts hworkers (Action.ofExcept (σ := Unit)) mixedOutcomes ()
  have hstatus : (mixedBatch.run ()).1.map BatchResult.status = .ok .partialSuccess := by
    decide
  have herrors : (mixedBatch.run ()).1.map BatchResult.errors = .ok [⟨1, "record 1 is bad"⟩,
      ⟨2, "KeyError: 'boom'"⟩, ⟨3, "ValidationError: 'n' is missing"⟩] := by
    decide +kernel
  have hmixed : mixedBatch.run () = (.ok result, ()) := hrun
  rw [hmixed] at hstatus herrors
  exact ⟨hworkers, result, outcomes, hmixed, haccounts, Except.ok.inj hstatus,
    Except.ok.inj herrors⟩

end ScanCatalog
