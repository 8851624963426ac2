import ScanCatalog.Filter.Parser
import ScanCatalog.Routing.Default

/-!
# Splitting a filter between the backends

Each key of a filter goes to the backend that owns it. Keys that no backend owns are
dropped with a warning, or refused when routing is strict.

## Main definitions

* `Routed`: the terms for each backend, and the keys without an owner;
* `RoutingTable.split`: the terms of a filter by their owners;
* `Router`, `Router.route`: splitting as a router does it;
* `SearchStrategy`, `Routed.strategy`: which backends are asked.
-/

namespace ScanCatalog

/-- A filter split between the backends, with the keys that no backend owns. -/
structure Routed where
  sql : Terms
  mongodb : Terms
  unowned : List Text

namespace Routed

/-- The terms for a backend. -/
def termsFor (routed : Routed) : Backend → Terms
  | .sql => routed.sql
  | .mongodb => routed.mongodb

end Routed

/-- The terms of a filter that a backend owns. -/
def RoutingTable.termsOf (table : RoutingTable) (service : Text) (backend : Backend)
    (terms : Terms) : Terms :=
  terms.filter fun term => (table.owner? service term.1).any fun entry => entry.backend == backend

/-- The terms of a filter by their owners. -/
def RoutingTable.split (table : RoutingTable) (service : Text) (terms : Terms) : Routed where
  sql := table.termsOf service .sql terms
  mongodb := table.termsOf service .mongodb terms
  unowned := (terms.filter fun term => (table.owner? service term.1).isNone).map (·.1)

/-- A routing table with the choice to refuse keys without an owner. -/
structure Router where
  table : RoutingTable
  strict : Bool

namespace Router

/-- Splits a filter expression. -/
def route (router : Router) (service : Text) (expression : Value) : Except Fault Routed := do
  let terms ← liftFilter (Terms.ofValue expression)
  let routed := router.table.split service terms
  if router.strict && !routed.unowned.isEmpty then .error (.unroutable service routed.unowned)
  else .ok routed

/-- The warning about keys that are dropped, if there are any. -/
def warning? (service : Text) (routed : Routed) : Option Text :=
  if routed.unowned.isEmpty then none
  else
    some ("✗ Dropping unroutable filter keys for " ++ service ++ ": " ++
      Text.literalList routed.unowned)

end Router

/-- Which backends a search asks with terms of their own. -/
inductive SearchStrategy
  | neither
  | relationalOnly
  | documentOnly
  | both
deriving DecidableEq, Repr

namespace SearchStrategy

/-- The name of a strategy. -/
def name : SearchStrategy → Text
  | .neither => "neither"
  | .relationalOnly => "relational_only"
  | .documentOnly => "document_only"
  | .both => "both"

end SearchStrategy

/-- The strategy for a split filter. -/
def Routed.strategy (routed : Routed) : SearchStrategy :=
  match routed.sql.isEmpty, routed.mongodb.isEmpty with
  | true, true => .neither
  | false, true => .relationalOnly
  | true, false => .documentOnly
  | false, false => .both

end ScanCatalog
