import ScanCatalog.Document.Store
import ScanCatalog.Join
import ScanCatalog.Motor.Compile
import ScanCatalog.Motor.Store
import ScanCatalog.Routing.Split

/-!
# Searching the catalog

A filter is split between the two backends. Each backend is asked for its terms, if it
has any, and the answers are joined on the sid. An offset and a limit apply to the
documents alone, so a search can give fewer records than its limit.

## Main definitions

* `Catalog`, `CatalogState`: the stores with the rules for routing, and their state;
* `Catalog.search`: the records that satisfy a filter;
* `Catalog.count`: their number.
-/

namespace ScanCatalog

/-- The two stores of the catalog, with the rules for its records and filters. -/
structure Catalog (σ δ : Type) where
  motorStore : MotorStore σ
  documentStore : DocumentStore δ
  router : Router
  schema : Schema
  collection : Text := "specscans"
  serviceName : Text := "SpecScans"

/-- The state of the two stores and of the sid clock. -/
structure CatalogState (σ δ : Type) where
  motors : Session σ
  documents : δ
  sidClock : SidClock

namespace Catalog

variable {σ δ α : Type}

/-- An action of the motor store. -/
def onMotors (action : Action (Session σ) α) : Action (CatalogState σ δ) α :=
  action.zoom CatalogState.motors fun state motors => { state with motors }

/-- An action of the document store. -/
def onDocuments (action : Action δ α) : Action (CatalogState σ δ) α :=
  action.zoom CatalogState.documents fun state documents => { state with documents }

/-- An action of the sid clock. -/
def onClock (action : Action SidClock α) : Action (CatalogState σ δ) α :=
  action.zoom CatalogState.sidClock fun state sidClock => { state with sidClock }

/-- Connects both stores and makes sure that the collection has its index. -/
def connect (catalog : Catalog σ δ) : Action (CatalogState σ δ) Unit := do
  onMotors catalog.motorStore.connect
  onDocuments catalog.documentStore.connect
  onDocuments (catalog.documentStore.ensureIndexes catalog.collection)

/-- Disconnects both stores. -/
def close (catalog : Catalog σ δ) : Action (CatalogState σ δ) Unit := do
  onMotors catalog.motorStore.disconnect
  onDocuments catalog.documentStore.disconnect

/-- The sids of documents that have one. -/
def sidsOf (documents : List Entries) : List Value :=
  (documents.map fun document => Entries.get document sidKey).filter fun sid => !sid.isNull

/-- The documents that satisfy a query. -/
def documents (catalog : Catalog σ δ) (query : Entries) (offset limit : Int) :
    Action (CatalogState σ δ) (List Entries) :=
  onDocuments (catalog.documentStore.get catalog.collection query offset limit)

/-- The condition that a sid is one of some. -/
def sidAmong (sids : List Value) : Entries := [(sidKey, .map [("$in", .list sids)])]

/-- The documents that satisfy a query, completed by their motors. -/
def searchDocuments (catalog : Catalog σ δ) (query : Entries) (offset limit : Int) :
    Action (CatalogState σ δ) (List Entries) := do
  let documents ← catalog.documents query offset limit
  let motorRecords ← onMotors (catalog.motorStore.bySids (sidsOf documents))
  Action.ofExcept (join documents motorRecords)

/-- The motor records that satisfy the terms of the motor tables. -/
def motorRecords (catalog : Catalog σ δ) (terms : Terms) :
    Action (CatalogState σ δ) (List MotorRecord) := do
  let queries ← Action.ofExcept (compileTerms terms)
  onMotors (catalog.motorStore.byQueries queries)

/-- The records that satisfy a filter that has been split. -/
def searchRouted (catalog : Catalog σ δ) (routed : Routed) (offset limit : Int) :
    Action (CatalogState σ δ) (List Entries) := do
  let query := routed.mongodb.toDocumentQuery
  match routed.strategy with
  | .neither | .documentOnly => catalog.searchDocuments query offset limit
  | .relationalOnly =>
    let found ← catalog.motorRecords routed.sql
    if found.isEmpty then return []
    let documents ← catalog.documents (sidAmong (found.map (·.sid))) offset limit
    Action.ofExcept (join documents found)
  | .both =>
    let found ← catalog.motorRecords routed.sql
    let documents ← catalog.documents query offset limit
    Action.ofExcept (join documents found)

/-- A filter split between the backends. -/
def route (catalog : Catalog σ δ) (expression : Entries) : Action (CatalogState σ δ) Routed :=
  Action.ofExcept (catalog.router.route catalog.serviceName (.map expression))

/-- The records that satisfy a filter. -/
def searchExpression (catalog : Catalog σ δ) (expression : Entries) (offset limit : Int) :
    Action (CatalogState σ δ) (List Entries) := do
  catalog.searchRouted (← catalog.route expression) offset limit

end Catalog

end ScanCatalog
