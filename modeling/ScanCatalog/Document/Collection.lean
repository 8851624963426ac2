import ScanCatalog.Document.Condition
import ScanCatalog.Document.Store
import ScanCatalog.Record.Split

/-!
# Collections in memory

A document store that keeps its collections in memory. No two documents of a
collection that were inserted one after the other have the same sid.

## Main definitions

* `Collections`: the documents of each collection, in order;
* `insertDocuments`, `findDocuments`, `upsertDocument`: the operations on the documents
  of one collection;
* `slice`: a part of a list by offset and limit;
* `Collections.store`: the document store.
-/

namespace ScanCatalog

/-- Faults if a value cannot be a member of a set. -/
def requireHashable (v : Value) : Except Fault Unit :=
  if v.isHashable then .ok () else .error (.value (.unhashable v.kindName))

/-- Faults if the sid of a document is among some sids. -/
def checkNewSid (stored : List Value) (document : Entries) : Except Fault Unit := do
  let sid := document.get sidKey
  requireHashable sid
  if stored.any fun s => sid.same s then .error (.documentStore (.duplicateSid sid))

/-- The documents of a collection with further ones, none of which has the sid of one
that was there before. -/
def insertDocuments (stored documents : List Entries) : Except Fault (List Entries) := do
  let sids := stored.map fun d => Entries.get d sidKey
  sids.forM requireHashable
  documents.forM (checkNewSid sids)
  return stored ++ documents

/-- The documents that satisfy a query, in order. -/
def findDocuments (query : Entries) : List Entries → Except Fault (List Entries)
  | [] => .ok []
  | document :: rest => do
    if ← documentSatisfies document query then
      return document :: (← findDocuments query rest)
    else findDocuments query rest

/-- The position in a list that a number names: one below zero counts from the end. -/
def positionIn (length : Nat) (i : Int) : Nat :=
  if i < 0 then (length + i).toNat else i.toNat

/-- The part of a list from an offset on and up to a limit, where a limit of zero is
none. -/
def slice {α : Type} (items : List α) (offset limit : Int) : List α :=
  let rest := items.drop (positionIn items.length offset)
  if limit = 0 then rest else rest.take (positionIn rest.length limit)

/-- The fields that an update changes: those under `$set`, or all. -/
def updateFields (update : Entries) : Value := (update.get? "$set").getD (.map update)

/-- The document that is added when none satisfies a condition. -/
def newDocument (condition : Entries) : Value → Except Fault Entries
  | .map fields => .ok (condition.update fields)
  | v => .error (.value (.notMapping v.kindName))

/-- The documents with the fields of the first that satisfies a condition changed, or
with a new one, and the fault that stopped the change of fields, if any. -/
def upsertDocument (condition : Entries) (fields : Value) (before : List Entries) :
    List Entries → Except Fault (List Entries × Option ValueFault)
  | [] => do return (before ++ [← newDocument condition fields], none)
  | document :: rest => do
    if ← documentSatisfies document condition then
      let (document, fault) := Entries.merge document fields
      return (before ++ document :: rest, fault)
    else upsertDocument condition fields (before ++ [document]) rest

/-- The documents of each collection, in the order in which they were put in. -/
structure Collections where
  collections : List (Text × List Entries) := []
deriving DecidableEq

namespace Collections

/-- The documents of a collection. -/
def documents (store : Collections) (name : Text) : List Entries :=
  (store.collections.lookup name).getD []

/-- The collections with the documents of one in place of those it has. -/
def putIn (name : Text) (documents : List Entries) :
    List (Text × List Entries) → List (Text × List Entries)
  | [] => [(name, documents)]
  | (n, ds) :: rest =>
    if n = name then (name, documents) :: rest else (n, ds) :: putIn name documents rest

/-- The store with other documents in a collection. -/
def put (store : Collections) (name : Text) (documents : List Entries) : Collections :=
  ⟨putIn name documents store.collections⟩

/-- Changes the documents of a collection, unless that fails. -/
def change (name : Text) (f : List Entries → Except Fault (List Entries)) :
    Action Collections Unit := fun store =>
  match f (store.documents name) with
  | .ok documents => (.ok (), store.put name documents)
  | .error fault => (.error fault, store)

/-- Changes or adds a document of a collection. A change of fields that is stopped
leaves the fields before it changed. -/
def upsert (name : Text) (condition : Entries) (fields : Value) : Action Collections Unit :=
  fun store =>
    match upsertDocument condition fields [] (store.documents name) with
    | .ok (documents, none) => (.ok (), store.put name documents)
    | .ok (documents, some fault) => (.error (.value fault), store.put name documents)
    | .error fault => (.error fault, store)

/-- The documents of a collection that satisfy a query. -/
def find (name : Text) (query : Entries) : Action Collections (List Entries) := fun store =>
  (findDocuments query (store.documents name), store)

/-- The document store that keeps its collections in memory. -/
def store : DocumentStore Collections where
  connect := Action.pure ()
  disconnect := Action.pure ()
  ensureIndexes name := change name .ok
  insert name documents := do
    change name fun stored => insertDocuments stored documents
    return documents.length
  get name query offset limit := do
    return slice (← find name query) offset limit
  count name query := do
    return (← find name query).length
  upsert name condition update := do
    Collections.upsert name condition (updateFields update)
    return 1

end Collections

end ScanCatalog
