import ScanCatalog.Fault

/-!
# Filters

What a user asks of one field: to be equal to a value, to be in a set, to lie between
bounds, to be there, or several of these. A filter keeps the value that it was read
from, because the document collection gets it in that form.

## Main definitions

* `Filter`: the sorts of filters;
* `Filter.raw`: the value a filter was read from;
* `Terms`: the filters of several fields, by key;
* `Terms.toDocumentQuery`: the terms in the form they were read from.
-/

namespace ScanCatalog

/-- What is asked of one field. -/
inductive Filter
  /-- the field equals the value -/
  | literal (value : Value)
  /-- the field equals one of the values -/
  | valueSet (raw : Value) (values : List Value)
  /-- the field lies between the bounds; a bound that is null is none -/
  | range (raw lower upper : Value) (lowerInclusive upperInclusive : Bool)
  /-- the field is there, or is not -/
  | exist (raw : Value) (present : Bool)
  /-- an operator that only the document collection knows -/
  | operator (raw : Value) (name : Text) (argument : Value)
  /-- all parts hold -/
  | compound (raw : Value) (parts : List Filter)
  /-- the fields of a mapping, each with its filter -/
  | nested (raw : Value) (fields : List (Text × Filter))
deriving Inhabited

namespace Filter

/-- The value a filter was read from. -/
def raw : Filter → Value
  | .literal value => value
  | .valueSet raw _ => raw
  | .range raw .. => raw
  | .exist raw _ => raw
  | .operator raw .. => raw
  | .compound raw _ => raw
  | .nested raw _ => raw

/-- The same filter read from another value. A literal is that value itself. -/
def withRaw (raw : Value) : Filter → Filter
  | .literal value => .literal value
  | .valueSet _ values => .valueSet raw values
  | .range _ lower upper lowerInclusive upperInclusive =>
    .range raw lower upper lowerInclusive upperInclusive
  | .exist _ present => .exist raw present
  | .operator _ name argument => .operator raw name argument
  | .compound _ parts => .compound raw parts
  | .nested _ fields => .nested raw fields

end Filter

/-- The filters of several fields, by key. -/
abbrev Terms := List (Text × Filter)

/-- The terms in the form they were read from. -/
def Terms.toDocumentQuery (terms : Terms) : Entries :=
  terms.map fun term => (.text term.1, term.2.raw)

end ScanCatalog
