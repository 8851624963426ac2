import ScanCatalog.Fault
import ScanCatalog.Value.Items
import ScanCatalog.Value.Order

/-!
# Conditions on documents

A query asks a document for conditions on the values under dotted paths. A condition
is a mapping of operators, all of which have to hold, or a value to be equal to.

## Main definitions

* `lookupPath`: the value under a dotted path, if there is one;
* `Condition.holds`: whether a value, or a missing one, satisfies a condition;
* `documentSatisfies`: whether a document satisfies a query.
-/

namespace ScanCatalog

/-- The code point between the parts of a dotted path. -/
def dotMark : Nat := 46

/-- The value under the parts of a path. Only mappings have parts. -/
def lookupParts : Value → List Text → Option Value
  | v, [] => some v
  | .map entries, part :: rest =>
    match Entries.get? entries (.text part) with
    | some v => lookupParts v rest
    | none => none
  | _, _ :: _ => none

/-- The value under a dotted path of a document. -/
def lookupPath (document : Entries) (path : Text) : Option Value :=
  lookupParts (.map document) (path.pieces dotMark)

namespace Condition

/-- A comparison by order of two values; it does not hold of values without one. -/
def comparesTo (c : Comparison) (v argument : Value) : Bool :=
  match v.compare c argument with
  | .ok holds => holds
  | .error _ => false

/-- The comparison of an operator. -/
def comparison? (operator : Text) : Option Comparison :=
  if operator = "$lt" then some .less
  else if operator = "$lte" then some .atMost
  else if operator = "$gt" then some .greater
  else if operator = "$gte" then some .atLeast
  else none

/-- Whether an operator with its argument holds of a value, or of a missing one. -/
def operatorHolds (v : Option Value) (operator : Text) (argument : Value) : Except Fault Bool :=
  if operator = "$exists" then .ok (v.isSome == argument.truth)
  else if operator = "$eq" then .ok (v.any fun v => v.same argument)
  else if operator = "$ne" then .ok (!v.any fun v => v.same argument)
  else if operator = "$in" then
    match v with
    | none => .ok false
    | some v => liftValue (v.isMember argument)
  else
    match comparison? operator with
    | some c => .ok (v.any fun v => comparesTo c v argument)
    | none => .error (.documentStore (.unknownOperator operator))

/-- Whether all operators hold, up to the first that does not. -/
def operatorsHold (v : Option Value) : Entries → Except Fault Bool
  | [] => .ok true
  | (operator, argument) :: rest => do
    if ← operatorHolds v operator.display argument then operatorsHold v rest else return false

/-- Whether all keys are those of operators, up to the first that is not. A key has to
be a text. -/
def areOperators : Entries → Except ValueFault Bool
  | [] => .ok true
  | (.text key, _) :: rest => if key.startsWith "$" then areOperators rest else .ok false
  | (key, _) :: _ => .error key.startFault

/-- Whether a value is equal to one that is asked for, or is a list that has it. -/
def equals (v : Option Value) (asked : Value) : Bool :=
  match v with
  | none => false
  | some (.list items) =>
    match asked with
    | .list wanted => Value.sameList items wanted
    | asked => asked.isIn items
  | some v => v.same asked

/-- Whether a value, or a missing one, satisfies a condition. -/
def holds (v : Option Value) (condition : Value) : Except Fault Bool :=
  match condition with
  | .map [] => .ok (equals v condition)
  | .map entries => do
    if ← liftValue (areOperators entries) then operatorsHold v entries
    else return equals v condition
  | condition => .ok (equals v condition)

end Condition

/-- Whether a document satisfies all conditions of a query, up to the first that it does
not. A path has to be a text. -/
def documentSatisfies (document : Entries) : Entries → Except Fault Bool
  | [] => .ok true
  | (.text path, condition) :: rest => do
    if ← Condition.holds (lookupPath document path) condition then
      documentSatisfies document rest
    else return false
  | (path, _) :: _ => .error (.value path.cutFault)

end ScanCatalog
