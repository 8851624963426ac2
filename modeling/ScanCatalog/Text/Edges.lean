/-!
# Sets of code points by their edges

A property of code points that holds on a few runs is written as the increasing
list of its edges: the code points at which it changes, starting from "does not
hold". `Edges.holds` reads such a list.
-/

namespace ScanCatalog.Edges

/-- Whether the property with these edges holds at `c`: an odd number of edges lie
at or below it. -/
def holds : List Nat → Nat → Bool
  | [], _ => false
  | edge :: rest, c => if c < edge then false else !holds rest c

end ScanCatalog.Edges
