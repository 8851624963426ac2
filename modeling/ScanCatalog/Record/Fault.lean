import ScanCatalog.Json.Message
import ScanCatalog.Value.Fault

/-!
# What can be wrong with a record

A submitted text can fail to decode to records, a record can fail the checks of its
shape and of a schema, and a schema can fail to describe any.

## Main definitions

* `DecodeFault`: why bytes or a text are not JSON that the catalog accepts;
* `RequestFault`: why a body does not hold records;
* `Problem`: what is wrong with one record;
* `SchemaFault`: what is wrong with a schema.
-/

namespace ScanCatalog

/-- Why bytes or a text are not JSON with finite constants only. -/
inductive DecodeFault
  | constant (name : Text)
  | notUtf8 (fault : Utf8Fault)
  | notJson (malformation : Json.Malformation)
deriving DecidableEq, Repr

/-- Why a body does not hold records. -/
inductive RequestFault
  | undecodable (fault : DecodeFault)
  /-- the item at the position is of the given kind and no object -/
  | badItem (position : Nat) (kind : Text)
  /-- the body is of the given kind and neither an object nor an array -/
  | badKind (kind : Text)
deriving DecidableEq, Repr

namespace RequestFault

/-- The message of a body that does not hold records. -/
def message : RequestFault → Text
  | .undecodable (.constant name) =>
    "Cannot decode body of request: " ++ name ++ " is not a valid number"
  | .undecodable (.notUtf8 fault) => "Request body is not UTF-8: " ++ fault.message
  | .undecodable (.notJson malformation) =>
    "Cannot decode body of request as JSON: " ++ malformation.message
  | .badItem position kind =>
    "Record " ++ Text.ofNat position ++ " must be a JSON object, got " ++ kind
  | .badKind kind => "Request body must be a JSON object or array, got " ++ kind

end RequestFault

/-- What is wrong with one record. -/
inductive Problem
  | notObject (kind : Text)
  | motorsNotObject (kind : Text)
  | badMnemonic (mnemonic : Value)
  | badPosition (mnemonic : Text) (position : Value)
  | missingKey (key : Text)
  | unknownKey (key : Value)
  | wrongType (key : Value) (wanted kind : Text)
  /-- an edit that names no record -/
  | noTarget
deriving DecidableEq, Repr

namespace Problem

/-- The message of a problem. -/
def message : Problem → Text
  | .notObject kind => "record must be an object, got " ++ kind
  | .motorsNotObject kind => "motors must be an object, got " ++ kind
  | .badMnemonic mnemonic => "invalid motor mnemonic " ++ mnemonic.literal
  | .badPosition mnemonic position =>
    "motor '" ++ mnemonic ++ "' position must be a finite number, got " ++ position.literal
  | .missingKey key => "missing required key '" ++ key ++ "'"
  | .unknownKey key => "unknown key '" ++ key.display ++ "'"
  | .wrongType key wanted kind =>
    "key '" ++ key.display ++ "' expects " ++ wanted ++ ", got " ++ kind
  | .noTarget =>
    "edit must identify its record by 'sid' or by ['spec_file', 'scan_number']"

/-- The message of a refused record: its problems in order. -/
def summary (problems : List Problem) : Text :=
  let text := Text.join "; " (problems.map message)
  if text.isEmpty then "invalid record" else text

end Problem

/-- What is wrong with a schema. -/
inductive SchemaFault
  | noKey (entry : Entries)
  | unknownType (key : Value) (type : Text)
  | unreadable (path reason : Text)
  | notArray (path : Text)
deriving DecidableEq, Repr

namespace SchemaFault

/-- The message of a schema that describes no records. -/
def message : SchemaFault → Text
  | .noKey entry => "Schema entry " ++ (Value.map entry).literal ++ " has no 'key'"
  | .unknownType key type =>
    "Schema entry '" ++ key.display ++ "' has unknown type '" ++ type ++ "'"
  | .unreadable path reason => "Could not load schema file " ++ path ++ ": " ++ reason
  | .notArray path => "Schema file " ++ path ++ " must hold a JSON array"

end SchemaFault

end ScanCatalog
