import ScanCatalog.Value.Order

/-!
# Sorting values

Values are put in order by comparisons, and two values without an order stop it. The
sort takes the run at the beginning as it is, or backwards if each value is less than
the one before, and then puts in one value after the other, at a place that is found by
halving. So the fault of values without an order names the first two that this compares.

## Main definitions

* `Value.firstRun`: the run at the beginning, and what follows it;
* `Value.insertionPlace`: where a value goes among sorted ones;
* `Value.sort`: the values in order.
-/

namespace ScanCatalog.Value

/-- The values that continue a run after `last`, each less than the one before if the
run is a falling one and none less if it is not, and the values after them. -/
def continueRun (falling : Bool) (last : Value) :
    List Value → Except ValueFault (List Value × List Value)
  | [] => .ok ([], [])
  | v :: rest => do
    if (← compare .less v last) == falling then
      let (run, rest) ← continueRun falling v rest
      return (v :: run, rest)
    else return ([], v :: rest)

/-- The run at the beginning, in rising order, and the values after it. -/
def firstRun : List Value → Except ValueFault (List Value × List Value)
  | a :: b :: rest => do
    let falling ← compare .less b a
    let (run, rest) ← continueRun falling b rest
    let whole := a :: b :: run
    return (if falling then whole.reverse else whole, rest)
  | few => .ok (few, [])

/-- The place of a value among sorted ones, which is known to lie from `low` to `high`:
after those that it is not less than. -/
def insertionPlace (sorted : List Value) (v : Value) (low high : Nat) : Except ValueFault Nat :=
  if _h : low < high then
    let middle := low + (high - low) / 2
    match compare .less v (sorted[middle]?.getD v) with
    | .error fault => .error fault
    | .ok true => insertionPlace sorted v low middle
    | .ok false => insertionPlace sorted v (middle + 1) high
  else .ok low
termination_by high - low

/-- Sorted values with further ones put in, one after the other. -/
def insertAll (sorted : List Value) : List Value → Except ValueFault (List Value)
  | [] => .ok sorted
  | v :: rest => do
    let place ← insertionPlace sorted v 0 sorted.length
    insertAll (sorted.take place ++ v :: sorted.drop place) rest

/-- The values in order; values that are not less than each other keep theirs. -/
def sort (values : List Value) : Except ValueFault (List Value) := do
  let (run, rest) ← firstRun values
  insertAll run rest

example : (sort [.int 3, .int 1, .int 2]).toOption = some [.int 1, .int 2, .int 3] := by
  decide +kernel

end ScanCatalog.Value
