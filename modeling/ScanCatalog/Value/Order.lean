import ScanCatalog.Value.Equality
import ScanCatalog.Value.Fault

/-!
# The order of values

Numbers and booleans are ordered by what they amount to, texts by code point, byte
strings by octet, and lists by their first items that differ. Other values have no
order, and values of different sorts have none between them.

## Main definitions

* `Comparison`: the four comparisons by order;
* `Value.compare`: a comparison of two values, or the fault that they have no order.
-/

namespace ScanCatalog

/-- A comparison by order. -/
inductive Comparison
  | less
  | atMost
  | greater
  | atLeast
deriving DecidableEq, Repr

namespace Comparison

/-- How messages write a comparison. -/
def symbol : Comparison → Text
  | .less => "<"
  | .atMost => "<="
  | .greater => ">"
  | .atLeast => ">="

/-- The comparison of two quantities; none holds of what is not a number. -/
def ofQuantities : Comparison → Quantity → Quantity → Bool
  | .less, p, q => p.less q
  | .atMost, p, q => p.atMost q
  | .greater, p, q => q.less p
  | .atLeast, p, q => q.atMost p

/-- The comparison of two sequences of numbers by their first difference. -/
def ofCodes : Comparison → List Nat → List Nat → Bool
  | .less, a, b => Text.codesPrecede a b
  | .atMost, a, b => !Text.codesPrecede b a
  | .greater, a, b => Text.codesPrecede b a
  | .atLeast, a, b => !Text.codesPrecede a b

/-- The comparison of two lengths, for lists of which one begins the other. -/
def ofLengths : Comparison → Nat → Nat → Bool
  | .less, m, n => m < n
  | .atMost, m, n => m ≤ n
  | .greater, m, n => n < m
  | .atLeast, m, n => n ≤ m

end Comparison

namespace Value

/-- The comparison of two values that are not both lists. -/
def compareAtoms (c : Comparison) (a b : Value) : Except ValueFault Bool :=
  match a.quantity?, b.quantity? with
  | some p, some q => .ok (c.ofQuantities p q)
  | _, _ =>
    match a, b with
    | .text s, .text t => .ok (c.ofCodes s.codes t.codes)
    | .bytes s, .bytes t => .ok (c.ofCodes s t)
    | a, b => .error (.notOrdered c.symbol a.kindName b.kindName)

mutual

/-- The comparison of two values. -/
def compare (c : Comparison) : Value → Value → Except ValueFault Bool
  | .list xs, b => match b with
    | .list ys => compareLists c xs ys
    | b => compareAtoms c (.list xs) b
  | .map xs, b => compareAtoms c (.map xs) b
  | .null, b => compareAtoms c .null b
  | .bool x, b => compareAtoms c (.bool x) b
  | .int x, b => compareAtoms c (.int x) b
  | .float x, b => compareAtoms c (.float x) b
  | .text x, b => compareAtoms c (.text x) b
  | .bytes x, b => compareAtoms c (.bytes x) b
termination_by structural a => a

/-- The comparison of two lists: that of their first items that differ, else that of
their lengths. -/
def compareLists (c : Comparison) : List Value → List Value → Except ValueFault Bool
  | [], ys => .ok (c.ofLengths 0 ys.length)
  | x :: xs, ys => match ys with
    | [] => .ok (c.ofLengths 1 0)
    | y :: ys => if x.same y then compareLists c xs ys else compare c x y
termination_by structural xs => xs

end

@[simp] theorem compare_floats (c : Comparison) (x y : Binary64) :
    compare c (.float x) (.float y) = .ok (c.ofQuantities x.quantity y.quantity) := rfl

@[simp] theorem compare_texts (c : Comparison) (s t : Text) :
    compare c (.text s) (.text t) = .ok (c.ofCodes s.codes t.codes) := rfl

example : (compare .less (.list [.int 1, "a"]) (.list [.int 1, "b"])).toOption = some true := by
  decide +kernel

end Value

end ScanCatalog
