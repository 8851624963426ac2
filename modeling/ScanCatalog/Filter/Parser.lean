import ScanCatalog.Filter.Basic
import ScanCatalog.Value.Equality

/-!
# Parsing filters

A filter is read from a value: a scalar asks for equality, a list of scalars for
membership, a mapping of operators for what the operators say, and any other mapping
for what its fields ask. Keys of operators begin with `$`.

## Main definitions

* `Filter.ofOperators`: the filter of a mapping of operators;
* `Filter.ofValue`: the filter of a value;
* `Terms.ofValue`: the terms of a whole filter expression.
-/

namespace ScanCatalog

namespace Filter

/-- Whether a key is that of an operator. -/
def isOperatorKey : Value → Bool
  | .text t => t.startsWith "$"
  | _ => false

/-- The operators that name a set of values. -/
def setOperators : List Value := ["$eq", "$in"]

/-- The operators that name a bound. -/
def boundOperators : List Value := ["$gt", "$gte", "$lt", "$lte"]

/-- The entries under some keys, in the order of the keys. -/
def entriesUnder (keys : List Value) (raw : Entries) : Entries :=
  keys.filterMap fun key => (raw.get? key).map fun v => (key, v)

/-- The values that both sets have; a set that is not given has all. -/
def intersect : Option (List Value) → List Value → List Value
  | none, values => values
  | some current, values => current.filter fun v => v.isIn values

/-- What the operators before one have said: a set, bounds by their operators, and
other parts. -/
structure Draft where
  exact : Option (List Value) := none
  bounds : Entries := []
  parts : List Filter := []

/-- Adds what one operator says. -/
def Draft.add (path : Text) (draft : Draft) (operator : Text) (argument : Value) :
    Except FilterFault Draft :=
  if operator = "$eq" then
    if argument.isScalar then .ok { draft with exact := some (intersect draft.exact [argument]) }
    else .error (.eqNotScalar path argument)
  else if operator = "$in" then
    match argument with
    | .list items =>
      if items.all Value.isScalar then
        .ok { draft with exact := some (intersect draft.exact items) }
      else .error (.inNotScalars path argument)
    | _ => .error (.inNotScalars path argument)
  else if (Value.text operator).isIn boundOperators then
    match argument with
    | .int _ | .float _ | .text _ =>
      .ok { draft with bounds := draft.bounds.set (.text operator) argument }
    | _ => .error (.badBound operator path argument)
  else if operator = "$exists" then
    match argument with
    | .bool _ | .int _ =>
      let part := Filter.exist (.map [(.text operator, argument)]) argument.truth
      .ok { draft with parts := draft.parts ++ [part] }
    | _ => .error (.existsNotBool path argument)
  else
    let part := Filter.operator (.map [(.text operator, argument)]) operator argument
    .ok { draft with parts := draft.parts ++ [part] }

/-- Adds what the operators of a mapping say, in their order. -/
def Draft.addAll (path : Text) : Draft → Entries → Except FilterFault Draft
  | draft, [] => .ok draft
  | draft, (key, argument) :: rest => do
    Draft.addAll path (← draft.add path key.display argument) rest

/-- The part that the bounds make, if there are any. -/
def Draft.range? (path : Text) (raw : Entries) (draft : Draft) :
    Except FilterFault (Option Filter) :=
  let bounds := draft.bounds
  if bounds.isEmpty then .ok none
  else if bounds.has "$gt" && bounds.has "$gte" then .error (.twoLowerBounds path)
  else if bounds.has "$lt" && bounds.has "$lte" then .error (.twoUpperBounds path)
  else
    let lowerInclusive := bounds.has "$gte"
    let upperInclusive := bounds.has "$lte"
    let lower := bounds.get (if lowerInclusive then "$gte" else "$gt")
    let upper := bounds.get (if upperInclusive then "$lte" else "$lt")
    .ok (some (.range (.map (entriesUnder boundOperators raw)) lower upper lowerInclusive
      upperInclusive))

/-- The part that the set makes, if there is one. -/
def Draft.set? (raw : Entries) (draft : Draft) : Option Filter :=
  draft.exact.map fun values => .valueSet (.map (entriesUnder setOperators raw)) values

/-- The filter of a mapping of operators: its set, its bounds and its other parts, all
of which have to hold. A single part stands for the whole mapping. -/
def ofOperators (path : Text) (raw : Entries) : Except FilterFault Filter := do
  let draft ← Draft.addAll path {} raw
  let range ← draft.range? path raw
  match (draft.set? raw).toList ++ range.toList ++ draft.parts with
  | [part] => return part.withRaw (.map raw)
  | parts => return .compound (.map raw) parts

/-- The path of a field under a path. A path is a key, or keys with points between
them; a key need not be a text, and one that counts as false is left out. -/
def pathUnder (path : Value) (key : Text) : Value :=
  .text (if path.truth then path.display ++ "." ++ key else key)

mutual

/-- The filter of a value under a path. -/
def ofValue (path : Value) : Value → Except FilterFault Filter
  | .map entries =>
    if entries.any fun e => isOperatorKey e.1 then
      if entries.all fun e => isOperatorKey e.1 then ofOperators path.display entries
      else .error (.mixedKeys path.display (Entries.keys entries))
    else
      match fieldsOf path entries with
      | .ok fields => .ok (.nested (.map entries) fields)
      | .error fault => .error fault
  | .list items =>
    if items.all Value.isScalar then .ok (.valueSet (.list items) items)
    else .ok (.literal (.list items))
  | .null => .ok (.literal .null)
  | .bool b => .ok (.literal (.bool b))
  | .int i => .ok (.literal (.int i))
  | .float x => .ok (.literal (.float x))
  | .text t => .ok (.literal (.text t))
  | .bytes octets => .error (.unsupportedValue path.display (.bytes octets))
termination_by structural v => v

/-- The filters of the fields of a mapping under a path. -/
def fieldsOf (path : Value) : List (Value × Value) → Except FilterFault (List (Text × Filter))
  | [] => .ok []
  | (key, v) :: rest =>
    match key with
    | .text t =>
      if t.isEmpty then .error (.badKeyUnder path.display key)
      else
        match ofValue (pathUnder path t) v with
        | .error fault => .error fault
        | .ok filter =>
          match fieldsOf path rest with
          | .error fault => .error fault
          | .ok fields => .ok ((t, filter) :: fields)
    | key => .error (.badKeyUnder path.display key)
termination_by structural es => es

end

end Filter

namespace Terms

/-- The terms of the entries of a filter expression. -/
def ofEntries : Entries → Except FilterFault Terms
  | [] => .ok []
  | (key, v) :: rest =>
    match key with
    | .text t =>
      if t.isEmpty then .error (.badKey key)
      else if t.startsWith "$" then .error (.operatorAtTop t)
      else do
        let filter ← Filter.ofValue (.text t) v
        return (t, filter) :: (← ofEntries rest)
    | key => .error (.badKey key)

/-- The terms of a filter expression; null asks nothing. -/
def ofValue : Value → Except FilterFault Terms
  | .null => .ok []
  | .map entries => ofEntries entries
  | v => .error (.notObject v.kindName)

end Terms

/-- A result of a filter operation among those of the catalog. -/
def liftFilter {α : Type} : Except FilterFault α → Except Fault α
  | .ok a => .ok a
  | .error fault => .error (.filter fault)

end ScanCatalog
