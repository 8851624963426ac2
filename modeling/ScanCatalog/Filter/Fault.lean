import ScanCatalog.Record.Fault

/-!
# What can be wrong with a filter

A filter can fail to decode, to parse, or to make sense for motor positions.

## Main definitions

* `FilterFault`: the causes;
* `FilterFault.message`: their messages.
-/

namespace ScanCatalog

/-- What is wrong with a filter. -/
inductive FilterFault
  /-- the text of a query is not JSON -/
  | undecodable (fault : DecodeFault)
  /-- the query is of the given kind and no object -/
  | queryNotObject (kind : Text)
  /-- a page of records begins or ends before the first; its limit may have no number -/
  | negativePage (idx : Int) (limit : Option Int)
  /-- the filter is of the given kind and no object -/
  | notObject (kind : Text)
  | badKey (key : Value)
  | operatorAtTop (key : Text)
  | mixedKeys (path : Text) (keys : List Value)
  | badKeyUnder (path : Text) (key : Value)
  | unsupportedValue (path : Text) (raw : Value)
  | eqNotScalar (path : Text) (argument : Value)
  | inNotScalars (path : Text) (argument : Value)
  | badBound (operator path : Text) (argument : Value)
  | existsNotBool (path : Text) (argument : Value)
  | twoLowerBounds (path : Text)
  | twoUpperBounds (path : Text)
  | notMotors (key : Text)
  | badMotors (raw : Value)
  | emptyMnemonic
  | positionNotNumber (mnemonic : Text) (position : Value)
  | positionsNotNumbers (mnemonic : Text) (positions : List Value)
  | boundNotNumber (mnemonic : Text) (bound : Value)
  | unsupportedOperator (name mnemonic : Text)
  | unsupportedMotorFilter (mnemonic : Text) (raw : Value)
  | absentAndConstrained (mnemonic : Text)
deriving DecidableEq, Repr

namespace FilterFault

/-- The limit of a page in a message. -/
def limitText (limit : Option Int) : Text := (limit.map Text.ofInt).getD "[]"

/-- The message of a filter fault. -/
def message : FilterFault → Text
  | .undecodable (.constant name) =>
    "Cannot decode query: " ++ name ++ " is not a valid number"
  | .undecodable (.notUtf8 fault) => "Query is not UTF-8: " ++ fault.message
  | .undecodable (.notJson malformation) =>
    "Cannot decode query as JSON: " ++ malformation.message
  | .queryNotObject kind => "Query must be a JSON object, got " ++ kind
  | .negativePage idx limit =>
    "idx and limit must be non-negative, got idx=" ++ Text.ofInt idx ++ " limit=" ++
      limitText limit
  | .notObject kind => "Filter expression must be an object, got " ++ kind
  | .badKey key => "Invalid filter key " ++ key.literal
  | .operatorAtTop key => "Top-level operator '" ++ key ++ "' is not supported"
  | .mixedKeys path keys =>
    "Filter for '" ++ path ++ "' mixes operators and field names: " ++ (Value.list keys).literal
  | .badKeyUnder path key => "Invalid filter key " ++ key.literal ++ " under '" ++ path ++ "'"
  | .unsupportedValue path raw =>
    "Unsupported filter value for '" ++ path ++ "': " ++ raw.literal
  | .eqNotScalar path argument =>
    "$eq for '" ++ path ++ "' expects a scalar, got " ++ argument.literal
  | .inNotScalars path argument =>
    "$in for '" ++ path ++ "' expects a list of scalars, got " ++ argument.literal
  | .badBound operator path argument =>
    operator ++ " for '" ++ path ++ "' expects a number or string, got " ++ argument.literal
  | .existsNotBool path argument =>
    "$exists for '" ++ path ++ "' expects a boolean, got " ++ argument.literal
  | .twoLowerBounds path => "Filter for '" ++ path ++ "' has both $gt and $gte"
  | .twoUpperBounds path => "Filter for '" ++ path ++ "' has both $lt and $lte"
  | .notMotors key => "Key '" ++ key ++ "' is not a motors field"
  | .badMotors raw =>
    "'motors' filter must be a mnemonic, a list of mnemonics or an object, got " ++ raw.literal
  | .emptyMnemonic => "Empty motor mnemonic in filter"
  | .positionNotNumber mnemonic position =>
    "Position for motor '" ++ mnemonic ++ "' must be a number, got " ++ position.literal
  | .positionsNotNumbers mnemonic positions =>
    "Positions for motor '" ++ mnemonic ++ "' must be numbers, got " ++
      (Value.list positions).literal
  | .boundNotNumber mnemonic bound =>
    "Bound for motor '" ++ mnemonic ++ "' must be a number, got " ++ bound.literal
  | .unsupportedOperator name mnemonic =>
    "Operator '" ++ name ++ "' is not supported for motor '" ++ mnemonic ++ "'"
  | .unsupportedMotorFilter mnemonic raw =>
    "Unsupported filter for motor '" ++ mnemonic ++ "': " ++ raw.literal
  | .absentAndConstrained mnemonic =>
    "Motor '" ++ mnemonic ++ "' cannot be both absent and constrained"

end FilterFault

end ScanCatalog
