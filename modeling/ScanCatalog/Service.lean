import ScanCatalog.Batch
import ScanCatalog.Record.Body
import ScanCatalog.Search
import ScanCatalog.Value.Sorting

/-!
# The service of the catalog

The operations that users call: records are added and edited in batches, and searched
and counted by filters. A record is stored in two steps, first its motors and then its
document; a record whose motors cannot be stored leaves no document.

## Main definitions

* `Catalog.addRecord`, `Catalog.add`: adding records;
* `Catalog.editRecord`, `Catalog.edit`: editing records;
* `Catalog.search`, `Catalog.count`: asking for records.
-/

namespace ScanCatalog

namespace Catalog

variable {σ δ : Type}

/-! ### Adding -/

/-- Stores a record, and gives it as it is stored. -/
def addRecord (catalog : Catalog σ δ) (record : Entries) :
    Action (CatalogState σ δ) Entries := do
  Action.ofExcept (catalog.schema.validate (.map record))
  let (document, motorRecord) ← onClock (decompose record)
  let _ ← onMotors (catalog.motorStore.insert motorRecord.sid (.map motorRecord.motors))
  let _ ← onDocuments (catalog.documentStore.insert catalog.collection [document])
  Action.ofExcept (complete document motorRecord)

/-- Stores the records of a body. -/
def add (catalog : Catalog σ δ) (body : Value) : Action (CatalogState σ δ) BatchResult := do
  runBatch catalog.addRecord (← Action.ofExcept (decodeRecords body))

/-! ### Editing -/

/-- The keys that name a record together. -/
def lookupKeys : List Value := ["spec_file", "scan_number"]

/-- The condition by which an edit names its record: its sid, or its file and number. -/
def editLookup (edit : Entries) : Except Fault Entries :=
  let sid := edit.get sidKey
  if !sid.isNull then .ok [(sidKey, sid)]
  else if lookupKeys.all fun key => !(edit.get key).isNull then
    .ok (lookupKeys.map fun key => (key, edit.get key))
  else .error (.validation [.noTarget])

/-- The first of some documents. -/
def firstDocument (documents : List Entries) : Except Fault Entries :=
  match documents with
  | document :: _ => .ok document
  | [] => .error (.value .noIndex)

/-- The sid of a document, which has to be there and to be a possible key. -/
def sidOf (document : Entries) : Except Fault Value :=
  match document.get? sidKey with
  | none => .error (.value (.noKey sidKey))
  | some sid =>
    if sid.isHashable then .ok sid else .error (.value (.unhashable sid.kindName))

/-- The fields that an edit changes: all but those by which it names its record. -/
def changesOf (lookup edit : Entries) : Entries :=
  edit.filter fun e => !lookup.has e.1 && !e.1.same sidKey

/-- The motors of a record, with those of an edit put in. -/
def mergedMotors (record : Entries) (motors : Value) : Except Fault Entries :=
  match motors, record.get motorsKey with
  | .map changes, .map current => .ok (Entries.update current changes)
  | .map changes, _ => .ok changes
  | v, _ => .error (.validation [.motorsNotObject v.kindName])

/-- A record with the changes of an edit. Motors are merged, and other fields replaced. -/
def applyChanges (record changes : Entries) : Except Fault Entries :=
  match changes.get? motorsKey with
  | none => .ok (record.update changes)
  | some motors => do
    let merged ← mergedMotors record motors
    return Entries.update (record.set motorsKey (.map merged)) (changes.erase motorsKey)

/-- Faults if the keys of an edit cannot be put in order. -/
def checkKeys (edit : Entries) : Except Fault Unit :=
  match Value.sort edit.keys with
  | .ok _ => .ok ()
  | .error fault => .error (.value fault)

/-- The record of a sid as it is stored; one without motors has none. -/
def storedRecord (catalog : Catalog σ δ) (sid : Value) :
    Action (CatalogState σ δ) Entries := do
  let document ← Action.ofExcept (firstDocument (← catalog.documents [(sidKey, sid)] 0 1))
  let motorRecords ← onMotors (catalog.motorStore.bySids [sid])
  Action.ofExcept (complete document (motorRecords.head?.getD { sid }))

/-- Stores a record with the changes of an edit, and gives it. -/
def applyEdit (catalog : Catalog σ δ) (sid : Value) (lookup edit : Entries) :
    Action (CatalogState σ δ) Entries := do
  let stored ← catalog.storedRecord sid
  let record ← Action.ofExcept (applyChanges stored (changesOf lookup edit))
  Action.ofExcept (catalog.schema.validate (.map record))
  if edit.has motorsKey then
    onMotors (catalog.motorStore.replaceMotors sid (record.get motorsKey))
  let _ ← onDocuments (catalog.documentStore.upsert catalog.collection [(sidKey, sid)]
    [("$set", .map (record.erase motorsKey))])
  Action.ofExcept (checkKeys edit)
  return record

/-- Edits the one record that an edit names. -/
def editRecord (catalog : Catalog σ δ) (edit : Entries) :
    Action (CatalogState σ δ) Entries := do
  let lookup ← Action.ofExcept (editLookup edit)
  let found ← onDocuments (catalog.documentStore.count catalog.collection lookup)
  if found != 1 then Action.fail (.editLookup lookup found)
  else
    let document ← Action.ofExcept (firstDocument (← catalog.documents lookup 0 1))
    let sid ← Action.ofExcept (sidOf document)
    catalog.applyEdit sid lookup edit

/-- Makes the edits of a body. -/
def edit (catalog : Catalog σ δ) (body : Value) : Action (CatalogState σ δ) BatchResult := do
  runBatch catalog.editRecord (← Action.ofExcept (decodeRecords body))

/-! ### Asking -/

/-- The records that satisfy a query, from an offset on and up to a limit. -/
def search (catalog : Catalog σ δ) (query : Value) (idx limit : Int) :
    Action (CatalogState σ δ) (List Entries) := do
  if idx < 0 ∨ limit < 0 then Action.fail (.filter (.negativePage idx (some limit)))
  else catalog.searchExpression (← Action.ofExcept (decodeQuery query)) idx limit

/-- The number of records that satisfy a query: of documents, if only the document
store is asked, else of joined records. -/
def count (catalog : Catalog σ δ) (query : Value) : Action (CatalogState σ δ) Int := do
  let expression ← Action.ofExcept (decodeQuery query)
  let routed ← catalog.route expression
  match routed.strategy with
  | .neither | .documentOnly =>
    onDocuments (catalog.documentStore.count catalog.collection routed.mongodb.toDocumentQuery)
  | .relationalOnly | .both => return (← catalog.searchExpression expression 0 0).length

end Catalog

end ScanCatalog
