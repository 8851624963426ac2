import ScanCatalog.Action

/-!
# Batches

A batch does one task for each submitted item, in order, and goes on after a failure.
Its result holds what the tasks gave and, for each task that failed, the position of
the item and a line about the failure.

## Main definitions

* `BatchStatus`, `BatchStatus.code`: how a batch went as a whole;
* `BatchResult`: the outcomes of a batch;
* `runBatch`: a batch of a task.
-/

namespace ScanCatalog

/-- How a batch went: nothing failed, some failed, or all failed. -/
inductive BatchStatus
  | success
  | partialSuccess
  | failure
deriving DecidableEq, Repr

namespace BatchStatus

/-- The name of a status. -/
def name : BatchStatus → Text
  | .success => "success"
  | .partialSuccess => "partial"
  | .failure => "failure"

/-- The name of a status in capitals. -/
def title : BatchStatus → Text
  | .success => "SUCCESS"
  | .partialSuccess => "PARTIAL"
  | .failure => "FAILURE"

/-- The code of an answer over the web. -/
def code : BatchStatus → Nat
  | .success => 200
  | .partialSuccess => 207
  | .failure => 400

end BatchStatus

/-- The failure of one record of a batch. -/
structure RecordError where
  index : Int
  text : Text
deriving DecidableEq, Repr

/-- The outcomes of a batch. -/
structure BatchResult where
  records : List Entries
  errors : List RecordError
  total : Int
  /-- the faults behind the errors, in the same order -/
  faults : List Fault := []
deriving DecidableEq, Repr

namespace BatchResult

/-- How the batch went as a whole. -/
def status (result : BatchResult) : BatchStatus :=
  if result.errors.isEmpty then .success
  else if result.records.isEmpty then .failure
  else .partialSuccess

/-- The lines about the failures. -/
def errorMessage (result : BatchResult) : Text :=
  Text.join "\n" (result.errors.map fun e =>
    "record " ++ Text.ofInt e.index ++ ": " ++ e.text)

/-- The result with the outcome for the item at a position. -/
def add (result : BatchResult) (index : Int) : Except Fault Entries → BatchResult
  | .ok record => { result with records := result.records ++ [record] }
  | .error fault =>
    { result with
      errors := result.errors ++ [⟨index, fault.report⟩]
      faults := result.faults ++ [fault] }

end BatchResult

/-- Does the task for each item from a position on. -/
def runBatchFrom {σ α : Type} (task : α → Action σ Entries) (result : BatchResult)
    (index : Int) : List α → Action σ BatchResult
  | [] => Action.pure result
  | item :: rest => do
    let outcome ← (task item).outcome
    runBatchFrom task (result.add index outcome) (index + 1) rest

/-- A batch of a task: each item is attempted, and none stops the others. -/
def runBatch {σ α : Type} (task : α → Action σ Entries) (items : List α) :
    Action σ BatchResult :=
  runBatchFrom task { records := [], errors := [], total := items.length } 0 items

/-- The number of workers of a batch, which needs one at least. -/
def checkWorkers (workers : Int) : Except Fault Unit :=
  if workers < 1 then .error .noWorkers else .ok ()

end ScanCatalog
