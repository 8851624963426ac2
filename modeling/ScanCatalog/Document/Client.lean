import ScanCatalog.Document.Store
import ScanCatalog.Value.Items

/-!
# A document store over a client

A document store can leave its collections to a database that it talks to by a client.
Each call of a client is an action on its state. A client error is reported as a fault
of the document store, but one that is neither of a lost connection nor of a refused
operation passes when the store connects.

## Main definitions

* `MongoConfig`, `MongoConfig.uri`: how to reach the database;
* `DocumentClient`: the calls of a client;
* `ClientSession`: a client with the knowledge whether the store holds one;
* `ClientStore.store`: the document store.
-/

namespace ScanCatalog

/-- How to reach the database of documents. -/
structure MongoConfig where
  host : Text := "localhost"
  portNumber : Int := 27017
  user : Option Text := none
  password : Option Text := none
  database : Text := "foxden"
  collection : Text := "specscans"
deriving DecidableEq, Repr

/-- The address of the database, with a user and a password if both are given. -/
def MongoConfig.uri (config : MongoConfig) : Text :=
  let user := config.user.getD Text.empty
  let password := config.password.getD Text.empty
  let credentials : Text :=
    if user.isEmpty || password.isEmpty then Text.empty else user ++ ":" ++ password ++ "@"
  "mongodb://" ++ credentials ++ config.host ++ ":" ++ Text.ofInt config.portNumber ++ "/" ++
    config.database

/-- What an update gives: the number of documents changed, and the number of a new one. -/
structure UpdateOutcome where
  modified : Int
  upsertedId : Value
deriving DecidableEq, Repr

/-- The calls of a client. A collection is named after its database. -/
structure DocumentClient (σ : Type) where
  /-- makes a client for an address -/
  openClient : (uri : Text) → Action σ Unit
  /-- asks the database whether it is there -/
  ping : Action σ Unit
  close : Action σ Unit
  /-- makes an index of a key in rising order in which no two documents are equal -/
  createIndex : (collection key : Text) → Action σ Unit
  insertMany : (collection : Text) → (documents : List Entries) → Action σ Unit
  find : (collection : Text) → (query projection : Entries) → Action σ Unit
  skip : Int → Action σ Unit
  limit : Int → Action σ Unit
  /-- the documents that the last find selects -/
  fetch : Action σ (List Entries)
  count : (collection : Text) → (query : Entries) → Action σ Int
  updateOne : (collection : Text) → (condition update : Entries) → Action σ UpdateOutcome

/-- The state of a store over a client: whether it holds one, and the client's state. -/
structure ClientSession (σ : Type) where
  connected : Bool
  client : σ

namespace ClientStore

variable {σ α : Type}

/-- A call of the client. -/
def call (action : Action σ α) : Action (ClientSession σ) α :=
  action.zoom ClientSession.client fun session client => { session with client }

/-- Remembers whether the store holds a client. -/
def setConnected (connected : Bool) : Action (ClientSession σ) Unit :=
  Action.modify fun session => { session with connected }

/-- Fails unless the store holds a client. -/
def requireClient : Action (ClientSession σ) Unit := do
  let session ← Action.get
  if session.connected then Action.pure () else Action.fail (.documentStore .notConnected)

/-- Reports a client error as a fault of the store. -/
def reporting (report : ClientFault → DocumentStoreFault) (action : Action (ClientSession σ) α) :
    Action (ClientSession σ) α :=
  action.handle fun fault =>
    match fault with
    | .client reason => Action.fail (.documentStore (report reason))
    | fault => Action.fail fault

/-- Gives the client up and fails. -/
def giveUp (fault : DocumentStoreFault) : Action (ClientSession σ) α := do
  setConnected false
  Action.fail (.documentStore fault)

/-- Makes a client and asks the database whether it is there. -/
def connect (uri : Text) (client : DocumentClient σ) : Action (ClientSession σ) Unit := do
  let session ← Action.get
  if session.connected then Action.pure ()
  else
    Action.handle
      (do
        call (client.openClient uri)
        setConnected true
        call client.ping)
      fun fault =>
        match fault with
        | .client reason =>
          match reason.family with
          | .connection => giveUp (.connect reason)
          | .operation => giveUp (.authentication reason)
          | .other => Action.fail fault
        | fault => Action.fail fault

/-- Closes the client, if the store holds one. -/
def disconnect (client : DocumentClient σ) : Action (ClientSession σ) Unit := do
  let session ← Action.get
  if session.connected then
    call client.close
    setConnected false
  else Action.pure ()

/-- The documents of a find; an offset and a limit of zero are none. -/
def select (client : DocumentClient σ) (collection : Text) (query : Entries)
    (offset limit : Int) : Action (ClientSession σ) (List Entries) := do
  call (client.find collection query [("_id", .int 0)])
  if offset != 0 then call (client.skip offset)
  if limit != 0 then call (client.limit limit)
  call client.fetch

/-- Whether an update says how to change fields: one of its keys, which have to be
texts up to it, is an operator. -/
def hasOperator : Entries → Except Fault Bool
  | [] => .ok false
  | (.text key, _) :: rest => if key.startsWith "$" then .ok true else hasOperator rest
  | (key, _) :: _ => .error (.value key.startFault)

/-- The number of documents that an update changed or added. -/
def affected (outcome : UpdateOutcome) : Int :=
  outcome.modified + if outcome.upsertedId.isNull then 0 else 1

/-- The document store over a client. -/
def store (config : MongoConfig) (client : DocumentClient σ) :
    DocumentStore (ClientSession σ) :=
  let named := fun (collection : Text) => config.database ++ "/" ++ collection
  { connect := connect config.uri client
    disconnect := disconnect client
    ensureIndexes := fun collection => do
      requireClient
      reporting (.index collection) (call (client.createIndex (named collection) "sid"))
    insert := fun collection documents => do
      if documents.isEmpty then return 0
      requireClient
      reporting (.insert collection) (call (client.insertMany (named collection) documents))
      return documents.length
    get := fun collection query offset limit => do
      requireClient
      reporting (.query collection) (select client (named collection) query offset limit)
    count := fun collection query => do
      requireClient
      reporting (.count collection) (call (client.count (named collection) query))
    upsert := fun collection condition update => do
      requireClient
      let update : Entries :=
        if ← Action.ofExcept (hasOperator update) then update else [("$set", .map update)]
      reporting (.upsert collection) do
        return affected (← call (client.updateOne (named collection) condition update)) }

end ClientStore

end ScanCatalog
