import ScanCatalog.Value.Order

/-!
# Position queries

A position query asks one motor of a scan: to be there with a position in a set and
between bounds, or not to be there.

## Main definitions

* `PositionQuery`: what is asked of one motor;
* `PositionQuery.constrainsPosition`: whether it asks anything of the position;
* `PositionQuery.accepts`: whether a position is in the set and between the bounds;
* `PositionQuery.isSatisfiedBy`: whether the motors of a scan satisfy a query;
* `PositionQuery.allSatisfiedBy`: whether they satisfy all queries of a list.
-/

namespace ScanCatalog

/-- What is asked of one motor. -/
structure PositionQuery where
  mnemonic : Value
  exact : Option (List Value) := none
  minimum : Option Value := none
  maximum : Option Value := none
  minInclusive : Bool := false
  maxInclusive : Bool := false
  present : Bool := true
deriving DecidableEq, Repr

namespace PositionQuery

/-- Whether the query asks anything of the position. -/
def constrainsPosition (query : PositionQuery) : Bool :=
  query.exact.isSome || query.minimum.isSome || query.maximum.isSome

theorem constrainsPosition_eq_false {query : PositionQuery} :
    query.constrainsPosition = false ↔
      query.exact = none ∧ query.minimum = none ∧ query.maximum = none := by
  unfold constrainsPosition
  simp only [Bool.or_eq_false_iff, Option.isSome_eq_false_iff, Option.isNone_iff_eq_none, and_assoc]

/-- Whether a position keeps to a bound: not beyond it, and not at it unless it is
inclusive. `beyond` is the comparison that leads past the bound. -/
def keepsTo (beyond : Comparison) (inclusive : Bool) (bound : Option Value) (position : Value) :
    Except ValueFault Bool :=
  match bound with
  | none => .ok true
  | some bound => do
    if ← position.compare beyond bound then return false
    else return inclusive || !position.same bound

/-- Whether a position is in the set of the query and between its bounds. -/
def accepts (query : PositionQuery) (position : Value) : Except ValueFault Bool :=
  if query.exact.all fun values => position.isIn values then do
    if ← keepsTo .less query.minInclusive query.minimum position then
      keepsTo .greater query.maxInclusive query.maximum position
    else return false
  else .ok false

/-- Whether the motors of a scan satisfy the query. -/
def isSatisfiedBy (query : PositionQuery) (motors : Entries) : Except ValueFault Bool :=
  if query.mnemonic.isHashable then
    match motors.get? query.mnemonic with
    | none => .ok (!query.present)
    | some position => if query.present then query.accepts position else .ok false
  else .error (.unhashable query.mnemonic.kindName)

/-- Whether the motors of a scan satisfy all queries; they are asked in order, up to
the first that fails. -/
def allSatisfiedBy (motors : Entries) : List PositionQuery → Except ValueFault Bool
  | [] => .ok true
  | query :: rest => do
    if ← query.isSatisfiedBy motors then allSatisfiedBy motors rest else return false

end PositionQuery

end ScanCatalog
