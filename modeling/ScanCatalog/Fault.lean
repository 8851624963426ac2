import ScanCatalog.Document.Fault
import ScanCatalog.Files.Fault
import ScanCatalog.Filter.Fault
import ScanCatalog.Motor.Fault
import ScanCatalog.Routing.Fault

/-!
# Faults

Every operation of the catalog that can fail gives a `Fault`. The faults that the
catalog reports on purpose belong to a family; the families form a tree under one
root, and a caller that handles a family handles all those below it. All other
faults come from values, files and databases, and belong to no family.

## Main definitions

* `Family`, `Family.parent?`, `Family.chain`: the tree of families;
* `Fault`: the causes;
* `Fault.family?`, `Fault.kind`, `Fault.message`, `Fault.detail?`: how each is reported;
* `StatedFault`: a fault that is given by the name of its kind;
* `Fault.report`: the line for a record of a batch that failed.
-/

namespace ScanCatalog

/-- A family of faults that the catalog reports on purpose. -/
inductive Family
  | root
  | requestDecode
  | validation
  | queryParse
  | unroutable
  | routingTable
  | editLookup
  | store
  | motorStore
  | duplicateScan
  | documentStore
deriving DecidableEq, Repr

namespace Family

/-- The names of the families. -/
def names : List (Family × Text) :=
  [(.root, "SpecScansError"), (.requestDecode, "RequestDecodeError"),
    (.validation, "ValidationError"), (.queryParse, "QueryParseError"),
    (.unroutable, "UnroutableFieldError"), (.routingTable, "RoutingTableError"),
    (.editLookup, "EditLookupError"), (.store, "StoreError"), (.motorStore, "MotorStoreError"),
    (.duplicateScan, "DuplicateScanError"), (.documentStore, "DocumentStoreError")]

/-- The name of a family. -/
def name (family : Family) : Text := (names.lookup family).getD Text.empty

/-- The family of a name. -/
def ofName? (name : Text) : Option Family := (names.find? (·.2 == name)).map (·.1)

theorem ofName?_name (family : Family) : ofName? family.name = some family := by
  cases family <;> decide

/-- The family above a family. -/
def parent? : Family → Option Family
  | .root => none
  | .unroutable => some .queryParse
  | .motorStore | .documentStore => some .store
  | .duplicateScan => some .motorStore
  | _ => some .root

/-- The family and those above it, up to `fuel` of them. -/
def chainFrom : Nat → Family → List Family
  | 0, _ => []
  | fuel + 1, family =>
    family :: match family.parent? with
      | some parent => chainFrom fuel parent
      | none => []

/-- The family and all those above it. No family is more than three below the root. -/
def chain (family : Family) : List Family := chainFrom 4 family

end Family

/-- A fault that is given by the name of its kind, with what is reported of it. -/
structure StatedFault where
  kind : Text
  message : Text
  /-- what a report holds besides the message -/
  detail : Option (Text × Value) := none
  /-- the family it belongs to: the one of that name, if nothing else is said -/
  family : Option Family := Family.ofName? kind
deriving DecidableEq, Repr

/-- Why an operation of the catalog failed. -/
inductive Fault
  | request (cause : RequestFault)
  | validation (problems : List Problem)
  | filter (cause : FilterFault)
  /-- no backend owns these keys of a filter -/
  | unroutable (service : Text) (keys : List Text)
  | routing (cause : RoutingFault)
  | schema (cause : SchemaFault)
  /-- an edit names `count` records instead of one -/
  | editLookup (lookup : Entries) (count : Int)
  | motorStore (cause : MotorStoreFault)
  | duplicateScan (sid : Value) (detail : Text)
  | documentStore (cause : DocumentStoreFault)
  | value (fault : ValueFault)
  /-- the two parts of a record differ in their sid -/
  | sidMismatch (document motors : Value)
  | noWorkers
  | file (fault : FileFault)
  | driver (fault : DriverFault)
  | client (fault : ClientFault)
  | stated (fault : StatedFault)
deriving DecidableEq, Repr

namespace Fault

/-- The family of a fault that the catalog reports on purpose. -/
def family? : Fault → Option Family
  | .request _ => some .requestDecode
  | .validation _ => some .validation
  | .filter _ => some .queryParse
  | .unroutable .. => some .unroutable
  | .routing _ => some .routingTable
  | .schema _ => some .root
  | .editLookup .. => some .editLookup
  | .motorStore _ => some .motorStore
  | .duplicateScan .. => some .duplicateScan
  | .documentStore _ => some .documentStore
  | .stated fault => fault.family
  | .value _ | .sidMismatch .. | .noWorkers | .file _ | .driver _ | .client _ => none

/-- Whether the catalog reports the fault on purpose. -/
def isReported (fault : Fault) : Bool := fault.family?.isSome

/-- The name of the kind of error a fault is reported as. -/
def kind : Fault → Text
  | .value fault => fault.kind
  | .sidMismatch .. | .noWorkers => "ValueError"
  | .file fault => fault.kind
  | .driver fault => fault.kind.name
  | .client fault => fault.name
  | .stated fault => fault.kind
  | fault => (fault.family?.map Family.name).getD Text.empty

/-- The message of a fault. -/
def message : Fault → Text
  | .request cause => cause.message
  | .validation problems => Problem.summary problems
  | .filter cause => cause.message
  | .unroutable service keys =>
    "Fields " ++ Text.literalList (Text.sorted keys) ++ " are not routable for service '" ++
      service ++ "'"
  | .routing cause => cause.message
  | .schema cause => cause.message
  | .editLookup lookup count =>
    "Edit lookup " ++ (Value.map lookup).literal ++ " matched " ++ Text.ofInt count ++
      " records, expected exactly 1"
  | .motorStore cause => cause.message
  | .duplicateScan sid detail => duplicateScanMessage sid detail
  | .documentStore cause => cause.message
  | .value fault => fault.message
  | .sidMismatch document motors =>
    "Cannot complete record: document sid " ++ document.literal ++ " != motor record sid " ++
      motors.literal
  | .noWorkers => "max_workers must be at least 1"
  | .file fault => fault.message
  | .driver fault => fault.message
  | .client fault => fault.message
  | .stated fault => fault.message

/-- What a report of some faults holds besides the message. -/
def detail? : Fault → Option (Text × Value)
  | .validation problems => some ("problems", .list (problems.map fun p => .text p.message))
  | .unroutable _ keys => some ("keys", .list (keys.map Value.text))
  | .editLookup _ count => some ("matches", .int count)
  | .duplicateScan sid _ => some ("sid", sid)
  | .stated fault => fault.detail
  | _ => none

/-- The line for a record of a batch that failed: the message, after the kind for a
fault that the catalog does not report on purpose. -/
def report (fault : Fault) : Text :=
  if fault.isReported then fault.message else fault.kind ++ ": " ++ fault.message

instance : Coe ValueFault Fault := ⟨Fault.value⟩

end Fault

/-- A result of a value operation among those of the catalog. -/
def liftValue {α : Type} : Except ValueFault α → Except Fault α
  | .ok a => .ok a
  | .error fault => .error (.value fault)

end ScanCatalog
