import ScanCatalog.Action

/-!
# Document stores

A document store keeps the documents of scans in collections.

## Main definitions

* `DocumentStore`: the operations of a store.
-/

namespace ScanCatalog

/-- The operations of a document store. -/
structure DocumentStore (δ : Type) where
  connect : Action δ Unit
  disconnect : Action δ Unit
  /-- makes sure that a collection has an index of its sids -/
  ensureIndexes : (collection : Text) → Action δ Unit
  /-- adds documents to a collection, and gives their number -/
  insert : (collection : Text) → (documents : List Entries) → Action δ Int
  /-- the documents that satisfy a query, from an offset on and up to a limit, where a
  limit of zero is none -/
  get : (collection : Text) → (query : Entries) → (offset limit : Int) →
    Action δ (List Entries)
  /-- the number of documents that satisfy a query -/
  count : (collection : Text) → (query : Entries) → Action δ Int
  /-- changes the first document that satisfies `condition`, or adds one, and gives the
  number of documents changed or added -/
  upsert : (collection : Text) → (condition update : Entries) → Action δ Int

end ScanCatalog
