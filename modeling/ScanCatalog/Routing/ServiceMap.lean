import ScanCatalog.Files.Tree
import ScanCatalog.Record.Body
import ScanCatalog.Routing.Default
import ScanCatalog.Value.Equality

/-!
# Service maps

A service map describes a routing table in one of two shapes: a list of entries, each
with its service, key and backend, or a mapping from services to backends to keys. It
comes from a file or, if its source begins like a web address, from a request.

## Main definitions

* `RoutingTable.ofValue`: the table of a service map;
* `FetchOutcome`: how a request for a service map ends;
* `RoutingTable.load`: the table of a source.
-/

namespace ScanCatalog

/-- The backend that a value names. -/
def Backend.ofValue (v : Value) : Except RoutingFault Backend :=
  match Backend.ofValue? v with
  | some backend => .ok backend
  | none => .error (.unknownBackend v)

/-- The field of an entry, which has to be there. -/
def RoutingEntry.field (entry : Entries) (key : Value) : Except RoutingFault Value :=
  match entry.get? key with
  | some v => .ok v
  | none => .error (.missing entry key)

/-- The entry that an item of a service map describes. -/
def RoutingEntry.ofValue : Value → Except RoutingFault RoutingEntry
  | .map entry => do
    let service ← field entry "service"
    let key ← field entry "key"
    let backend ← Backend.ofValue (← field entry "backend")
    return ⟨service.display, key.display, backend⟩
  | item => .error (.entryNotObject item)

namespace RoutingTable

/-- The entries of a backend of a service. -/
def entriesOfBackend (service backend keys : Value) : Except RoutingFault (List RoutingEntry) := do
  let owner ← Backend.ofValue backend
  match keys with
  | .list keys => return keys.map fun key => ⟨service.display, key.display, owner⟩
  | keys => .error (.keysNotList service backend keys)

/-- The entries of all backends of a service. -/
def entriesOfBackends (service : Value) : Entries → Except RoutingFault (List RoutingEntry)
  | [] => .ok []
  | (backend, keys) :: rest => do
    return (← entriesOfBackend service backend keys) ++ (← entriesOfBackends service rest)

/-- The entries of all services. -/
def entriesOfServices : Entries → Except RoutingFault (List RoutingEntry)
  | [] => .ok []
  | (service, backends) :: rest =>
    match backends with
    | .map backends => do
      return (← entriesOfBackends service backends) ++ (← entriesOfServices rest)
    | _ => .error (.serviceNotObject service)

/-- The table of a service map. -/
def ofValue : Value → Except RoutingFault RoutingTable
  | .list items => do ofEntries (← items.mapM RoutingEntry.ofValue)
  | .map services => do ofEntries (← entriesOfServices services)
  | v => .error (.unsupportedKind v.kindName)

end RoutingTable

/-- The content of an answer to a request. -/
inductive AnswerBody
  | text (t : Text)
  /-- the content cannot be read, for the given reason -/
  | unreadable (reason : Text)
deriving DecidableEq, Repr

/-- How a request ends. -/
inductive FetchOutcome
  | failed (reason : Text)
  | answered (status : Int) (reason : Text) (body : AnswerBody)
deriving DecidableEq, Repr

namespace RoutingTable

/-- Why a status means that a request failed, if it does. -/
def statusFailure? (source reason : Text) (status : Int) : Option Text :=
  let describe := fun (blame : Text) =>
    Text.ofInt status ++ " " ++ blame ++ " Error: " ++ reason ++ " for url: " ++ source
  if 400 ≤ status ∧ status < 500 then some (describe "Client")
  else if 500 ≤ status ∧ status < 600 then some (describe "Server")
  else none

/-- The value that a request for a service map gives. -/
def fetchedValue (source : Text) : FetchOutcome → Except Fault Value
  | .failed reason => .error (.routing (.unfetched source reason))
  | .answered status reason body =>
    match statusFailure? source reason status with
    | some reason => .error (.routing (.unfetched source reason))
    | none =>
      match body with
      | .unreadable reason => .error (.routing (.answerNotJson source reason))
      | .text t =>
        match decodeStored (fun m => .routing (.unfetched source m.message)) t with
        | .error (.value (.tooManyDigits digits)) =>
          .error (.routing (.answerNotJson source (ValueFault.tooManyDigits digits).message))
        | result => result

/-- The value of a service map in a file. Bytes that are not UTF-8 and integers that are
too long are not reported as faults of the map. -/
def fileValue (tree : FileTree) (source : Text) : Except Fault Value :=
  let path := Path.tidy source
  match tree.readText path with
  | .error (.file fault) => .error (.routing (.unreadable path fault.message))
  | .error fault => .error fault
  | .ok t => decodeStored (fun m => .routing (.fileNotJson path m)) t

/-- Whether a source is fetched by a request. -/
def isWebSource (source : Text) : Bool :=
  source.startsWith "http://" || source.startsWith "https://"

/-- A result of a routing operation among those of the catalog. -/
def lift {α : Type} : Except RoutingFault α → Except Fault α
  | .ok a => .ok a
  | .error fault => .error (.routing fault)

/-- The table of a source; without one it is the built-in table. -/
def load (tree : FileTree) (fetch : Text → FetchOutcome) (source : Option Text) :
    Except Fault RoutingTable :=
  match source with
  | none => .ok (builtIn catalogService)
  | some source =>
    if source.isEmpty then .ok (builtIn catalogService)
    else if isWebSource source then do lift (ofValue (← fetchedValue source (fetch source)))
    else do lift (ofValue (← fileValue tree source))

end RoutingTable

end ScanCatalog
