import ScanCatalog.Value.Fault

/-!
# What can go wrong in a document store

## Main definitions

* `ClientFault`: an error of a client of the document database, and its family;
* `DocumentStoreFault`: the causes that a document store reports.
-/

namespace ScanCatalog

/-- How a document store treats an error of its client. -/
inductive ClientFault.Family
  | connection
  | operation
  | other
deriving DecidableEq, Repr

/-- An error of a client of the document database. -/
structure ClientFault where
  name : Text
  message : Text
deriving DecidableEq, Repr

namespace ClientFault

/-- The names of errors of a lost connection. -/
def connectionNames : List Text :=
  ["ConnectionFailure", "AutoReconnect", "ServerSelectionTimeoutError", "NetworkTimeout",
    "NotPrimaryError", "WaitQueueTimeoutError"]

/-- The names of errors of a refused operation. -/
def operationNames : List Text :=
  ["OperationFailure", "CursorNotFound", "ExecutionTimeout", "WriteConcernError", "WriteError",
    "WTimeoutError", "DuplicateKeyError", "BulkWriteError"]

/-- The family of an error. -/
def family (fault : ClientFault) : Family :=
  if connectionNames.contains fault.name then .connection
  else if operationNames.contains fault.name then .operation
  else .other

end ClientFault

/-- What went wrong in a document store. -/
inductive DocumentStoreFault
  | notConnected
  | connect (reason : ClientFault)
  | authentication (reason : ClientFault)
  | index (collection : Text) (reason : ClientFault)
  | insert (collection : Text) (reason : ClientFault)
  | query (collection : Text) (reason : ClientFault)
  | count (collection : Text) (reason : ClientFault)
  | upsert (collection : Text) (reason : ClientFault)
  /-- a document of this sid is already stored -/
  | duplicateSid (sid : Value)
  | unknownOperator (name : Text)
deriving DecidableEq, Repr

namespace DocumentStoreFault

/-- The message of a document store fault. -/
def message : DocumentStoreFault → Text
  | .notConnected => "Not connected to MongoDB."
  | .connect reason => "Could not connect to MongoDB: " ++ reason.message
  | .authentication reason => "MongoDB authentication failed: " ++ reason.message
  | .index collection reason =>
    "Could not create sid index on '" ++ collection ++ "': " ++ reason.message
  | .insert collection reason =>
    "Could not insert into '" ++ collection ++ "': " ++ reason.message
  | .query collection reason => "Could not query '" ++ collection ++ "': " ++ reason.message
  | .count collection reason => "Could not count '" ++ collection ++ "': " ++ reason.message
  | .upsert collection reason =>
    "Could not upsert into '" ++ collection ++ "': " ++ reason.message
  | .duplicateSid sid => "duplicate sid " ++ sid.display
  | .unknownOperator name => "unknown operator " ++ name

end DocumentStoreFault

end ScanCatalog
