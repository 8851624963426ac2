import ScanCatalog.Json.Message
import ScanCatalog.Routing.Backend
import ScanCatalog.Value.Fault

/-!
# What can be wrong with a service map

## Main definitions

* `RoutingFault`: the causes, from an unknown backend to an unreadable file;
* `RoutingFault.message`: their messages.
-/

namespace ScanCatalog

/-- What is wrong with a service map. -/
inductive RoutingFault
  | unknownBackend (name : Value)
  | missing (entry : Entries) (key : Value)
  | emptyKey (service : Text)
  | conflict (key service : Text) (first second : Backend)
  | entryNotObject (item : Value)
  | serviceNotObject (service : Value)
  | keysNotList (service backend keys : Value)
  | unsupportedKind (kind : Text)
  /-- a request for the map failed -/
  | unfetched (source reason : Text)
  /-- the answer to a request is no JSON -/
  | answerNotJson (source reason : Text)
  | unreadable (path reason : Text)
  | fileNotJson (path : Text) (malformation : Json.Malformation)
deriving DecidableEq, Repr

namespace RoutingFault

/-- The message of a service map fault. -/
def message : RoutingFault → Text
  | .unknownBackend name => "Unknown backend '" ++ name.display ++ "'"
  | .missing entry key =>
    "Routing entry " ++ (Value.map entry).literal ++ " is missing " ++ key.literal
  | .emptyKey service => "Empty key in routing entry for '" ++ service ++ "'"
  | .conflict key service first second =>
    "Key '" ++ key ++ "' of service '" ++ service ++ "' is assigned to both " ++ first.name ++
      " and " ++ second.name
  | .entryNotObject item => "Routing entry must be an object, got " ++ item.literal
  | .serviceNotObject service =>
    "Service '" ++ service.display ++ "' must map backends to key lists"
  | .keysNotList service backend keys =>
    "Keys for " ++ service.display ++ "/" ++ backend.display ++ " must be a list, got " ++
      keys.literal
  | .unsupportedKind kind => "Unsupported service map type: " ++ kind
  | .unfetched source reason =>
    "Could not fetch service map from " ++ source ++ ": " ++ reason
  | .answerNotJson source reason =>
    "Service map at " ++ source ++ " is not valid JSON: " ++ reason
  | .unreadable path reason => "Could not read service map " ++ path ++ ": " ++ reason
  | .fileNotJson path malformation =>
    "Service map " ++ path ++ " is not valid JSON: " ++ malformation.message

end RoutingFault

end ScanCatalog
