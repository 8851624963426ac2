import ScanCatalog.CommandLine.Help
import ScanCatalog.CommandLine.Invocation
import ScanCatalog.Config
import ScanCatalog.Files.Tree
import ScanCatalog.Json.Printer
import ScanCatalog.Record.SchemaFile
import ScanCatalog.Routing.ServiceMap
import ScanCatalog.Service

/-!
# Running commands

A run of the program reads its arguments, takes the settings from the environment and
does one command. Faults that the catalog reports on purpose, and files that cannot be
read, end the run with a line about them; other faults escape.

## Main definitions

* `Surroundings`: what a run finds besides its arguments;
* `Output`, `RunResult`: what a run writes, and how it ends;
* `Surroundings.perform`: a command with settings;
* `Surroundings.run`: a run of the program.
-/

namespace ScanCatalog

/-- What a run finds: the stores that can be reached, files, web sources, variables and
the bytes that are put in. -/
structure Surroundings (σ δ : Type) where
  driverFor : Dialect → SqlDriver σ
  documentStore : MongoConfig → DocumentStore δ
  files : FileTree
  fetch : Text → FetchOutcome
  environment : Environment
  input : List Nat

/-- What a command writes, and the code with which it exits. -/
structure Output where
  exit : Nat
  out : Text := Text.empty
  err : Text := Text.empty
deriving DecidableEq, Repr

/-- How a run ends. -/
inductive RunResult
  /-- the arguments ask for no command -/
  | refused (refusal : Refusal)
  /-- the settings of the environment are wrong -/
  | misconfigured (fault : Fault)
  /-- a command is done, or a fault escaped from it -/
  | performed (verbose : Int) (outcome : Except Fault Output)

/-- Whether a fault ends a run with a line about it. -/
def Fault.isCaught (fault : Fault) : Bool :=
  fault.isReported ||
    match fault with
    | .file _ => true
    | _ => false

namespace Output

/-- The lines about a batch. -/
def batchLines (result : BatchResult) : List Text :=
  (result.status.title ++ ": " ++ Text.ofInt result.records.length ++ "/" ++
      Text.ofInt result.total ++ " records stored") ::
    (result.records.map fun record => "  ✓ sid=" ++ (Entries.get record sidKey).display) ++
    result.errors.map fun e => "  ✗ record " ++ Text.ofInt e.index ++ ": " ++ e.text

/-- What a batch writes: it succeeds only if nothing failed. -/
def ofBatch (result : BatchResult) : Output where
  exit := if result.status = .success then 0 else 1
  out := Text.lines (batchLines result)

/-- What a search writes: the records, and their number beside them. -/
def ofRecords (records : List Entries) : Output where
  exit := 0
  out := Text.lines [Json.writeIndented (.list (records.map Value.map))]
  err := Text.lines [Text.ofInt records.length ++ " records"]

/-- What is written when the motor tables are ready. -/
def ofCount (config : MotorsConfig) (count : Int) : Output where
  exit := 0
  out := Text.lines
    ["✓ Motors schema ready (" ++ config.dbType ++ "), " ++ Text.ofInt count ++ " scans stored"]

/-- What is written about a fault that ends a run. -/
def ofFault (fault : Fault) : Output where
  exit := 1
  err := Text.lines ["✗ " ++ fault.message]

end Output

/-- The fault of a page that lacks a number, which cannot be compared with zero. -/
def noNumberFault : Fault := .value (.notOrdered "<" "list" "int")

/-- The numbers of a page of records. The first one is compared with zero before the
second. -/
def pageNumbers : Option Int → Option Int → Except Fault (Int × Int)
  | some idx, some limit => .ok (idx, limit)
  | some idx, none => .error (if idx < 0 then .filter (.negativePage idx none) else noNumberFault)
  | none, _ => .error noNumberFault

namespace Surroundings

variable {σ δ α : Type}

/-- The bytes under a path, where `-` is what is put in. -/
def body (surroundings : Surroundings σ δ) (path : Text) : Except Fault (List Nat) :=
  if path = "-" then .ok surroundings.input else surroundings.files.read path

/-- The catalog of settings. -/
def catalog (surroundings : Surroundings σ δ) (config : AppConfig) :
    Except Fault (Catalog σ δ) := do
  let motorStore ← MotorStore.ofConfig config.motors surroundings.driverFor
  let table ← RoutingTable.load surroundings.files surroundings.fetch config.service.serviceMap
  let schema ← Schema.load surroundings.files config.service.schemaFile
  return {
    motorStore
    documentStore := surroundings.documentStore config.mongo
    router := ⟨table, config.service.strictRouting⟩
    schema
    collection := config.mongo.collection
    serviceName := config.service.name }

/-- An action on a connected catalog, which is closed after it in any case. -/
def withCatalog (surroundings : Surroundings σ δ) (config : AppConfig)
    (action : Catalog σ δ → Action (CatalogState σ δ) α) : Action (CatalogState σ δ) α := do
  let catalog ← Action.ofExcept (surroundings.catalog config)
  catalog.connect
  Action.always (do
    Action.ofExcept (checkWorkers config.service.maxWorkers)
    action catalog) catalog.close

/-- The number of stored scans, asked of motor tables that are made ready. -/
def countScans (surroundings : Surroundings σ δ) (config : AppConfig) :
    Action (CatalogState σ δ) Int := do
  let store ← Action.ofExcept (MotorStore.ofConfig config.motors surroundings.driverFor)
  Catalog.onMotors do
    store.connect
    Action.always store.count store.disconnect

/-- Does a command with settings. -/
def perform (surroundings : Surroundings σ δ) (config : AppConfig) :
    Command → Action (CatalogState σ δ) Output
  | .initDb => do return .ofCount config.motors (← surroundings.countScans config)
  | .add path => do
    let body ← Action.ofExcept (surroundings.body path)
    return .ofBatch (← surroundings.withCatalog config fun catalog => catalog.add (.bytes body))
  | .edit path => do
    let body ← Action.ofExcept (surroundings.body path)
    return .ofBatch (← surroundings.withCatalog config fun catalog => catalog.edit (.bytes body))
  | .search query idx limit => do
    return .ofRecords (← surroundings.withCatalog config fun catalog => do
      let (idx, limit) ← Action.ofExcept (pageNumbers idx limit)
      catalog.search (.text query) idx limit)

/-- Ends with a line about a fault, if it is one to be caught. -/
def catching (action : Action (CatalogState σ δ) Output) : Action (CatalogState σ δ) Output :=
  action.handle fun fault =>
    if fault.isCaught then Action.pure (.ofFault fault) else Action.fail fault

/-- The state at the start of a run: no store is connected. -/
def disconnected (state : CatalogState σ δ) : CatalogState σ δ :=
  { state with motors := { state.motors with connected := false } }

/-- A run of the program: how it ends, and the stores after it. -/
def run (surroundings : Surroundings σ δ) (arguments : List Text) (state : CatalogState σ δ) :
    RunResult × CatalogState σ δ :=
  match Invocation.ofArguments arguments with
  | .error refusal => (.refused refusal, state)
  | .ok invocation =>
    match AppConfig.ofEnvironment surroundings.environment with
    | .error fault => (.misconfigured fault, state)
    | .ok config =>
      let verbose := (invocation.verbose.map Int.ofNat).getD config.service.verbose
      match (catching (surroundings.perform config invocation.command)).run
          (disconnected state) with
      | (outcome, state) => (.performed verbose outcome, state)

end Surroundings

end ScanCatalog
