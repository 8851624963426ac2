import ScanCatalog.Document.Client

/-!
# A scripted client

A client that writes down its calls and answers them from a script.

## Main definitions

* `ClientEvent`: a call of a client;
* `ClientScript`: the calls so far, and the answers to come;
* `ClientScript.client`: the calls of the client.
-/

namespace ScanCatalog

/-- A call of a client. -/
inductive ClientEvent
  | openClient (uri : Text)
  | ping
  | close
  | createIndex (collection key : Text)
  | insertMany (collection : Text) (documents : List Entries)
  | find (collection : Text) (query projection : Entries)
  | skip (count : Int)
  | limit (count : Int)
  | iterate
  | count (collection : Text) (query : Entries)
  | updateOne (collection : Text) (condition update : Entries)
deriving DecidableEq, Repr

/-- The name of a call. -/
def ClientEvent.name : ClientEvent → Text
  | .openClient _ => "client"
  | .ping => "admin.command"
  | .close => "close"
  | .createIndex .. => "create_index"
  | .insertMany .. => "insert_many"
  | .find .. => "find"
  | .skip _ => "skip"
  | .limit _ => "limit"
  | .iterate => "iterate"
  | .count .. => "count_documents"
  | .updateOne .. => "update_one"

/-- An error for the first call of a name. -/
structure ScriptedClientError where
  name : Text
  fault : ClientFault
deriving DecidableEq, Repr

/-- The calls so far, and the answers to come. -/
structure ClientScript where
  /-- the calls, the latest first -/
  calls : List ClientEvent := []
  errors : List ScriptedClientError := []
  documents : List Entries := []
  count : Int := 0
  outcome : UpdateOutcome := ⟨0, .null⟩
deriving DecidableEq

namespace ClientScript

/-- The calls in the order in which they were made. -/
def events (script : ClientScript) : List ClientEvent := script.calls.reverse

/-- Writes a call down and raises the error for it, if there is one. -/
def note (event : ClientEvent) : Action ClientScript Unit := fun script =>
  let script := { script with calls := event :: script.calls }
  match script.errors.find? fun error => error.name == event.name with
  | some error =>
    (.error (.client error.fault), { script with errors := script.errors.erase error })
  | none => (.ok (), script)

/-- The calls of a scripted client. -/
def client : DocumentClient ClientScript where
  openClient uri := note (.openClient uri)
  ping := note .ping
  close := note .close
  createIndex collection key := note (.createIndex collection key)
  insertMany collection documents := note (.insertMany collection documents)
  find collection query projection := note (.find collection query projection)
  skip count := note (.skip count)
  limit count := note (.limit count)
  fetch := do
    note .iterate
    return (← Action.get).documents
  count collection query := do
    note (.count collection query)
    return (← Action.get).count
  updateOne collection condition update := do
    note (.updateOne collection condition update)
    return (← Action.get).outcome

end ClientScript

end ScanCatalog
